import Latch.Program

/-!
# Traces

What is observed of a program while it is carried out. Questions are answered by a relation, so that
one question may have many answers: a clock may show any time, and a call may fail.

* `Event` — a question that was answered: who asked, what came back, and the states around it;
* `Program.Trace` — a program is carried out up to some point. Between its questions the state may
  drift, which stands for whatever else uses it;
* `Program.Asks` — every question that a program can come to ask meets a condition;
* `Program.Ends` — every result that a program can come to has a property.

Main results:

* `Trace.ask_cases` — how a trace of a program that asks a question can begin;
* `Trace.answered` — every event of a trace is an answer that the relation allows;
* `Trace.asked` — every question of a trace meets the condition of its program;
* `Trace.keeps` — what drift and answers keep holds along a trace;
* `Trace.ends` — the result of a trace has the property that all results have;
* `Asks.run_keeps`, `Asks.run_alike` — the same for a run without interruption, and for two such runs
  side by side.
-/

namespace Latch

/-- A question that was answered. -/
structure Event {Ask : Type} (ι : Type) (Reply : Ask → Type) (σ : Type) where
  actor : ι
  question : Ask
  reply : Reply question
  before : σ
  after : σ

/-- Which answers a question can have in a state, and the state after each. -/
abbrev Answering {Ask : Type} (Reply : Ask → Type) (σ : Type) : Type :=
  (question : Ask) → σ → Reply question → σ → Prop

namespace Program

variable {Ask : Type} {Reply : Ask → Type} {ι α β σ : Type}
  {answers : Answering Reply σ} {drift : σ → σ → Prop} {actor : ι}

/-- A program is carried out up to some point; the last two arguments are what is left of it and the
state then. -/
inductive Trace (answers : Answering Reply σ) (drift : σ → σ → Prop) (actor : ι) :
    Program Reply α → σ → List (Event ι Reply σ) → Program Reply α → σ → Prop
  | stop {p : Program Reply α} {s s' : σ} (hDrift : drift s s') :
      Trace answers drift actor p s [] p s'
  | turn {q : Ask} {next : Reply q → Program Reply α} {s s₁ s₂ s' : σ} {r : Reply q}
      {es : List (Event ι Reply σ)} {p : Program Reply α}
      (hDrift : drift s s₁) (hAnswer : answers q s₁ r s₂)
      (hRest : Trace answers drift actor (next r) s₂ es p s') :
      Trace answers drift actor (.ask q next) s (⟨actor, q, r, s₁, s₂⟩ :: es) p s'

/-! ## How a trace can begin -/

theorem Trace.done_inv {a : α} {s s' : σ} {es : List (Event ι Reply σ)} {p : Program Reply α}
    (h : Trace answers drift actor (.done a) s es p s') : es = [] ∧ p = .done a ∧ drift s s' := by
  cases h with
  | stop hDrift => exact ⟨rfl, rfl, hDrift⟩

theorem Trace.ask_cases {q : Ask} {next : Reply q → Program Reply α} {s s' : σ}
    {es : List (Event ι Reply σ)} {p : Program Reply α}
    (h : Trace answers drift actor (.ask q next) s es p s') :
    (es = [] ∧ p = .ask q next ∧ drift s s') ∨
      ∃ s₁ r s₂ rest, es = ⟨actor, q, r, s₁, s₂⟩ :: rest ∧ drift s s₁ ∧ answers q s₁ r s₂ ∧
        Trace answers drift actor (next r) s₂ rest p s' := by
  cases h with
  | stop hDrift => exact Or.inl ⟨rfl, rfl, hDrift⟩
  | turn hDrift hAnswer hRest => exact Or.inr ⟨_, _, _, _, rfl, hDrift, hAnswer, hRest⟩

theorem Trace.of_drift {p p' : Program Reply α} {s s₁ s' : σ} {es : List (Event ι Reply σ)}
    (h : Trace answers drift actor p s₁ es p' s') (hDrift : ∀ x, drift s₁ x → drift s x) :
    Trace answers drift actor p s es p' s' := by
  cases h with
  | stop hd => exact .stop (hDrift _ hd)
  | turn hd hAnswer hRest => exact .turn (hDrift _ hd) hAnswer hRest

/-! ## What holds of every event -/

theorem Trace.answered {p p' : Program Reply α} {s s' : σ} {es : List (Event ι Reply σ)}
    (h : Trace answers drift actor p s es p' s') :
    ∀ e ∈ es, answers e.question e.before e.reply e.after := by
  induction h with
  | stop => simp
  | turn _ hAnswer _ ih =>
    intro e he
    rcases List.mem_cons.mp he with rfl | he
    · exact hAnswer
    · exact ih e he

theorem Trace.actor_eq {p p' : Program Reply α} {s s' : σ} {es : List (Event ι Reply σ)}
    (h : Trace answers drift actor p s es p' s') : ∀ e ∈ es, e.actor = actor := by
  induction h with
  | stop => simp
  | turn _ _ _ ih =>
    intro e he
    rcases List.mem_cons.mp he with rfl | he
    · rfl
    · exact ih e he

/-- Other answers are as good, if they allow every event of the trace. -/
theorem Trace.of_answered {answers' : Answering Reply σ} {p p' : Program Reply α} {s s' : σ}
    {es : List (Event ι Reply σ)} (h : Trace answers drift actor p s es p' s')
    (hEvents : ∀ e ∈ es, answers' e.question e.before e.reply e.after) :
    Trace answers' drift actor p s es p' s' := by
  induction h with
  | stop hDrift => exact .stop hDrift
  | turn hDrift _ _ ih =>
    obtain ⟨hFirst, hRest⟩ := List.forall_mem_cons.mp hEvents
    exact .turn hDrift hFirst (ih hRest)

/-- Every question that a program can come to ask, whatever the answers, meets a condition. -/
def Asks (P : Ask → Prop) : Program Reply α → Prop
  | done _ => True
  | ask q next => P q ∧ ∀ r, (next r).Asks P

theorem Asks.of_forall {P : Ask → Prop} (hP : ∀ q, P q) (p : Program Reply α) : p.Asks P := by
  induction p with
  | done a => trivial
  | ask q next ih => exact ⟨hP q, ih⟩

theorem Asks.bind {P : Ask → Prop} {p : Program Reply α} {f : α → Program Reply β}
    (hp : p.Asks P) (hf : ∀ a, (f a).Asks P) : (p.bind f).Asks P := by
  induction p with
  | done a => exact hf a
  | ask q next ih => exact ⟨hp.1, fun r => ih r (hp.2 r)⟩

/-- The same for programs that stop at the first error. -/
theorem Asks.attempt_bind {ε : Type} {P : Ask → Prop} {x : ExceptT ε (Program Reply) α}
    {f : α → ExceptT ε (Program Reply) β} (hx : x.run.Asks P) (hf : ∀ a, (f a).run.Asks P) :
    (x >>= f).run.Asks P :=
  Asks.bind hx fun
    | .ok a => hf a
    | .error _ => trivial

/-- The questions of an expanded program are those of the scripts. -/
theorem Asks.expand {Ask₂ : Type} {Reply₂ : Ask₂ → Type} {P : Ask → Prop} {Q : Ask₂ → Prop}
    {script : (q : Ask) → Program Reply₂ (Reply q)} {p : Program Reply α} (hp : p.Asks P)
    (hScript : ∀ q, P q → (script q).Asks Q) : (p.expand script).Asks Q := by
  induction p with
  | done a => trivial
  | ask q next ih => exact (hScript q hp.1).bind fun r => ih r (hp.2 r)

theorem Asks.mono {P Q : Ask → Prop} {p : Program Reply α} (hPQ : ∀ q, P q → Q q)
    (hp : p.Asks P) : p.Asks Q := by
  induction p with
  | done a => trivial
  | ask q next ih => exact ⟨hPQ q hp.1, fun r => ih r (hp.2 r)⟩

theorem Trace.asked {P : Ask → Prop} {p p' : Program Reply α} {s s' : σ}
    {es : List (Event ι Reply σ)} (h : Trace answers drift actor p s es p' s') (hp : p.Asks P) :
    ∀ e ∈ es, P e.question := by
  induction h with
  | stop => simp
  | turn _ _ _ ih =>
    intro e he
    rcases List.mem_cons.mp he with rfl | he
    · exact hp.1
    · exact ih (hp.2 _) e he

/-- What drift and the answers of a trace keep holds at every event and at the end. -/
theorem Trace.keeps {I : σ → Prop} {p p' : Program Reply α} {s s' : σ}
    {es : List (Event ι Reply σ)} (h : Trace answers drift actor p s es p' s')
    (hDrift : ∀ s s', drift s s' → I s → I s')
    (hEvents : ∀ e ∈ es, I e.before → I e.after) (hs : I s) :
    (∀ e ∈ es, I e.before) ∧ I s' := by
  induction h with
  | stop hd => exact ⟨by simp, hDrift _ _ hd hs⟩
  | turn hd _ _ ih =>
    -- the state drifts first and is answered then
    have hBefore := hDrift _ _ hd hs
    have hAfter := hEvents _ (List.mem_cons_self ..) hBefore
    obtain ⟨hRest, hEnd⟩ := ih (fun e he => hEvents e (List.mem_cons_of_mem _ he)) hAfter
    exact ⟨List.forall_mem_cons.mpr ⟨hBefore, hRest⟩, hEnd⟩

/-! ## What holds of every result -/

/-- Whatever the answers, the result of a program has a property. -/
def Ends (P : α → Prop) : Program Reply α → Prop
  | done a => P a
  | ask _ next => ∀ r, (next r).Ends P

theorem Trace.ends {P : α → Prop} {p : Program Reply α} {a : α} {s s' : σ}
    {es : List (Event ι Reply σ)} (h : Trace answers drift actor p s es (.done a) s')
    (hp : p.Ends P) : P a := by
  -- the induction is on the trace; what is left at its end is the same all along
  generalize hDone : (Program.done a : Program Reply α) = p' at h
  induction h with
  | stop =>
    subst hDone
    exact hp
  | turn _ _ _ ih => exact ih (hp _) hDone

/-! ## Runs without interruption -/

section Runs

variable {handle : (question : Ask) → σ → Reply question × σ} {P : Ask → Prop}
  {p : Program Reply α}

/-- What every answer to a question keeps, a run keeps. -/
theorem Asks.run_keeps {I : σ → Prop} (hp : p.Asks P)
    (hStep : ∀ q s, P q → I s → I (handle q s).2) {s : σ} (hs : I s) : I (p.run handle s).2 := by
  induction p generalizing s with
  | done a => exact hs
  | ask q next ih => exact ih _ (hp.2 _) (hStep q s hp.1 hs)

/-- If questions are answered alike in two states, and leave alike states behind, then so does a whole
run. -/
theorem Asks.run_alike {R : σ → σ → Prop} (hp : p.Asks P)
    (hStep : ∀ q s s', P q → R s s' →
      (handle q s).1 = (handle q s').1 ∧ R (handle q s).2 (handle q s').2)
    {s s' : σ} (hs : R s s') :
    (p.run handle s).1 = (p.run handle s').1 ∧ R (p.run handle s).2 (p.run handle s').2 := by
  induction p generalizing s s' with
  | done a => exact ⟨rfl, hs⟩
  | ask q next ih =>
    obtain ⟨hReply, hAfter⟩ := hStep q s s' hp.1 hs
    have hRest := ih (handle q s).1 (hp.2 _) hAfter
    simp only [run, ← hReply]
    exact hRest

end Runs

end Program

end Latch
