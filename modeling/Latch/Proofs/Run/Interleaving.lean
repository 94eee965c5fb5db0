import Latch.Proofs.Run.Trace
import Mathlib.Logic.Function.Basic

/-!
# Interleavings

Several programs share one state and take turns in any order. A turn asks one question, so what
happens between two questions of a program is decided by the others alone.

* `Interleaving` — the programs of a family take turns;
* `play` — lets programs take their turns as a schedule says;
* `beside` — the family of one program and any number of others.

Main results:

* `Interleaving.trace` — to each program the others are nothing but drift;
* `Interleaving.invariant` — what one turn keeps holds along a run;
* `Interleaving.next_turn` — the next turn of a program that has a question, and what comes before;
* `Interleaving.last_turn`, `Interleaving.inner_turn` — the same in a run that ends with its last
  question, for that question and for one before it;
* `Interleaving.asked` — every question of a run meets the condition of its program;
* `exists_alone` — a program that nobody disturbs runs to its end.
-/

namespace Latch

open Program (Asks Trace)

variable {Ask : Type} {Reply : Ask → Type} {ι σ : Type} [DecidableEq ι] {α : ι → Type}
  {answers : Answering Reply σ}

/-- The programs of a family take turns; the last two arguments are what is left of them and the
state then. -/
inductive Interleaving (answers : Answering Reply σ) :
    ((i : ι) → Program Reply (α i)) → σ → List (Event ι Reply σ) →
      ((i : ι) → Program Reply (α i)) → σ → Prop
  | stop (ps : (i : ι) → Program Reply (α i)) (s : σ) : Interleaving answers ps s [] ps s
  | turn {ps ps' : (i : ι) → Program Reply (α i)} {s s₁ s' : σ} {i : ι} {q : Ask}
      {next : Reply q → Program Reply (α i)} {r : Reply q} {es : List (Event ι Reply σ)}
      (hAsk : ps i = .ask q next) (hAnswer : answers q s r s₁)
      (hRest : Interleaving answers (Function.update ps i (next r)) s₁ es ps' s') :
      Interleaving answers ps s (⟨i, q, r, s, s₁⟩ :: es) ps' s'

/-- A turn adds its event to those of its actor. -/
theorem filter_actor_self (es : List (Event ι Reply σ)) (e : Event ι Reply σ) :
    (es ++ [e]).filter (·.actor = e.actor) = es.filter (·.actor = e.actor) ++ [e] := by
  simp [List.filter_append]

theorem filter_actor_of_ne {i : ι} {e : Event ι Reply σ} (h : i ≠ e.actor)
    (es : List (Event ι Reply σ)) :
    (es ++ [e]).filter (·.actor = i) = es.filter (·.actor = i) := by
  simp [List.filter_append, Ne.symm h]

namespace Interleaving

variable {ps ps' : (i : ι) → Program Reply (α i)} {s s' : σ} {es : List (Event ι Reply σ)}

theorem answered (h : Interleaving answers ps s es ps' s') :
    ∀ e ∈ es, answers e.question e.before e.reply e.after := by
  induction h with
  | stop => simp
  | turn _ hAnswer _ ih =>
    intro e he
    rcases List.mem_cons.mp he with rfl | he
    · exact hAnswer
    · exact ih e he

theorem asked {P : ι → Ask → Prop} (h : Interleaving answers ps s es ps' s')
    (hps : ∀ i, (ps i).Asks (P i)) :
    (∀ e ∈ es, P e.actor e.question) ∧ ∀ i, (ps' i).Asks (P i) := by
  induction h with
  | stop => exact ⟨by simp, hps⟩
  | @turn ps ps' s s₁ s' i q next r es hAsk _ _ ih =>
    have hi : (Program.ask q next).Asks (P i) := hAsk ▸ hps i
    -- one program goes on with what is left of it, the others wait
    have hUpdate : ∀ j, (Function.update ps i (next r) j).Asks (P j) := by
      intro j
      by_cases hj : j = i
      · subst hj
        rw [Function.update_self]
        exact hi.2 r
      · rw [Function.update_of_ne hj]
        exact hps j
    obtain ⟨hEvents, hLeft⟩ := ih hUpdate
    refine ⟨fun e he => ?_, hLeft⟩
    rcases List.mem_cons.mp he with rfl | he
    · exact hi.1
    · exact hEvents e he

/-- To each program the others are nothing but drift. -/
theorem trace (h : Interleaving answers ps s es ps' s') (i : ι) :
    Trace answers (fun _ _ => True) i (ps i) s (es.filter (·.actor = i)) (ps' i) s' := by
  induction h with
  | stop => exact .stop trivial
  | @turn ps ps' s s₁ s' j q next r es hAsk hAnswer _ ih =>
    by_cases hj : j = i
    · -- a turn of its own
      subst hj
      rw [Function.update_self] at ih
      rw [List.filter_cons_of_pos (by simp), hAsk]
      exact .turn trivial hAnswer ih
    · -- a turn of another program, which is drift
      rw [Function.update_of_ne (Ne.symm hj)] at ih
      rw [List.filter_cons_of_neg (by simpa using hj)]
      exact ih.of_drift fun _ _ => trivial

/-- What one turn keeps holds along a run. The invariant may speak of the events so far, to which a
turn adds its own at the end. -/
theorem invariant {I : List (Event ι Reply σ) → ((i : ι) → Program Reply (α i)) → σ → Prop}
    (h : Interleaving answers ps s es ps' s') (hStart : I [] ps s)
    (hTurn : ∀ {es ps s i q next r s'}, I es ps s → ps i = .ask q next → answers q s r s' →
      I (es ++ [⟨i, q, r, s, s'⟩]) (Function.update ps i (next r)) s') : I es ps' s' := by
  -- the events that were there before are carried along
  have hFrom : ∀ past, I past ps s → I (past ++ es) ps' s' := by
    clear hStart
    induction h with
    | stop =>
      intro past hPast
      rwa [List.append_nil]
    | turn hAsk hAnswer _ ih =>
      intro past hPast
      have hRest := ih _ (hTurn hPast hAsk hAnswer)
      rwa [List.append_assoc] at hRest
  exact hFrom [] hStart

theorem append {ps₁ : (i : ι) → Program Reply (α i)} {s₁ : σ} {late : List (Event ι Reply σ)}
    (h : Interleaving answers ps s es ps₁ s₁) (hLate : Interleaving answers ps₁ s₁ late ps' s') :
    Interleaving answers ps s (es ++ late) ps' s' := by
  induction h with
  | stop => exact hLate
  | turn hAsk hAnswer _ ih => exact .turn hAsk hAnswer (ih hLate)

theorem done_of_done {i : ι} {a : α i} (h : Interleaving answers ps s es ps' s')
    (hDone : ps i = .done a) : (∀ e ∈ es, e.actor ≠ i) ∧ ps' i = .done a := by
  have hTrace := h.trace i
  rw [hDone] at hTrace
  obtain ⟨hNone, hLeft, -⟩ := hTrace.done_inv
  exact ⟨by simpa [List.filter_eq_nil_iff] using hNone, hLeft⟩

/-- The next turn of a program that has a question: it has none, or what comes before it is a run of
the others. -/
theorem next_turn {i : ι} {q : Ask} {next : Reply q → Program Reply (α i)}
    (h : Interleaving answers ps s es ps' s') (hAsk : ps i = .ask q next) :
    ((∀ e ∈ es, e.actor ≠ i) ∧ ps' i = .ask q next) ∨
      ∃ (early late : List (Event ι Reply σ)) (ps₁ : (j : ι) → Program Reply (α j)) (s₁ s₂ : σ)
        (r : Reply q),
        es = early ++ ⟨i, q, r, s₁, s₂⟩ :: late ∧ (∀ e ∈ early, e.actor ≠ i) ∧
        Interleaving answers ps s early ps₁ s₁ ∧ answers q s₁ r s₂ ∧
        Interleaving answers (Function.update ps₁ i (next r)) s₂ late ps' s' := by
  induction h with
  | stop => exact Or.inl ⟨by simp, hAsk⟩
  | @turn ps ps' s s₁ s' j q' next' r' es hAsk' hAnswer hRest ih =>
    by_cases hj : j = i
    · subst hj
      cases hAsk.symm.trans hAsk'
      exact Or.inr ⟨[], es, ps, s, s₁, r', rfl, by simp, .stop ps s, hAnswer, hRest⟩
    · -- another program comes first, and the question stands
      rw [Function.update_of_ne (Ne.symm hj)] at ih
      rcases ih hAsk with ⟨hNone, hLeft⟩ |
        ⟨early, late, ps₁, s₂, s₃, r, rfl, hEarly, hRun, hRead, hLate⟩
      · refine Or.inl ⟨fun e he => ?_, hLeft⟩
        rcases List.mem_cons.mp he with rfl | he
        · exact hj
        · exact hNone e he
      · refine Or.inr ⟨_ :: early, late, ps₁, s₂, s₃, r, rfl, fun e he => ?_,
          .turn hAsk' hAnswer hRun, hRead, hLate⟩
        rcases List.mem_cons.mp he with rfl | he
        · exact hj
        · exact hEarly e he

/-- A run that ends with the last question of a program is a run of the others before it. -/
theorem last_turn {i : ι} {q : Ask} {next : Reply q → Program Reply (α i)} {last : Event ι Reply σ}
    (h : Interleaving answers ps s (es ++ [last]) ps' s') (hAsk : ps i = .ask q next)
    (hNext : ∀ r, ∃ a, next r = .done a) (hLast : last.actor = i) :
    ∃ (ps₁ : (j : ι) → Program Reply (α j)) (s₁ : σ) (r : Reply q),
      last = ⟨i, q, r, s₁, s'⟩ ∧ (∀ e ∈ es, e.actor ≠ i) ∧ Interleaving answers ps s es ps₁ s₁ ∧
      answers q s₁ r s' ∧ ps' i = next r := by
  rcases h.next_turn hAsk with ⟨hNone, -⟩ |
    ⟨early, late, ps₁, s₁, s₂, r, hEvents, hEarly, hRun, hAnswer, hLate⟩
  · exact absurd hLast (hNone last (by simp))
  · obtain ⟨a, ha⟩ := hNext r
    obtain ⟨hAfter, -⟩ := hLate.done_of_done (by rw [Function.update_self, ha])
    obtain rfl : late = [] := by
      -- otherwise the last event would be one of a program that is done
      rcases List.eq_nil_or_concat late with hNil | ⟨front, e, rfl⟩
      · exact hNil
      · have hSplit : es ++ [last] = (early ++ ⟨i, q, r, s₁, s₂⟩ :: front) ++ [e] := by
          simpa using hEvents
        obtain ⟨-, hSame⟩ := List.append_inj' hSplit rfl
        cases hSame
        exact absurd hLast (hAfter _ (by simp))
    obtain ⟨rfl, hSame⟩ := List.append_inj' hEvents rfl
    cases hSame
    cases hLate
    exact ⟨ps₁, s₁, r, rfl, hEarly, hRun, hAnswer, Function.update_self ..⟩

/-- A question of a program that is not its last comes before the last one. -/
theorem inner_turn {i : ι} {q : Ask} {next : Reply q → Program Reply (α i)} {a : α i}
    {last : Event ι Reply σ} (h : Interleaving answers ps s (es ++ [last]) ps' s')
    (hAsk : ps i = .ask q next) (hNext : ∀ r, next r ≠ .done a) (hLast : last.actor = i)
    (hDone : ps' i = .done a) :
    ∃ (early late : List (Event ι Reply σ)) (ps₁ : (j : ι) → Program Reply (α j)) (s₁ s₂ : σ)
      (r : Reply q),
      es = early ++ ⟨i, q, r, s₁, s₂⟩ :: late ∧ (∀ e ∈ early, e.actor ≠ i) ∧
      answers q s₁ r s₂ ∧
      Interleaving answers (Function.update ps₁ i (next r)) s₂ (late ++ [last]) ps' s' := by
  rcases h.next_turn hAsk with ⟨hNone, -⟩ |
    ⟨early, rest, ps₁, s₁, s₂, r, hEvents, hEarly, -, hAnswer, hRest⟩
  · exact absurd hLast (hNone last (by simp))
  · rcases List.eq_nil_or_concat rest with rfl | ⟨late, e, rfl⟩
    · -- nothing comes after the question, yet the program is not done with it
      cases hRest
      exact absurd ((Function.update_self i (next r) ps₁).symm.trans hDone) (hNext r)
    · rw [List.concat_eq_append] at hRest hEvents
      have hSplit : es ++ [last] = (early ++ ⟨i, q, r, s₁, s₂⟩ :: late) ++ [e] := by
        rw [hEvents, List.append_assoc, List.cons_append]
      obtain ⟨rfl, hSame⟩ := List.append_inj' hSplit rfl
      cases hSame
      exact ⟨early, late, ps₁, s₁, s₂, r, rfl, hEarly, hAnswer, hRest⟩

theorem mono {answers' : Answering Reply σ} (h : Interleaving answers ps s es ps' s')
    (hMono : ∀ q s r s', answers q s r s' → answers' q s r s') :
    Interleaving answers' ps s es ps' s' := by
  induction h with
  | stop => exact .stop _ _
  | turn hAsk hAnswer _ ih => exact .turn hAsk (hMono _ _ _ _ hAnswer) ih

end Interleaving

/-! ## Schedules -/

section Schedules

variable {τ : Type}

/-- What a schedule leads to. -/
structure Played (α : ι → Type) (Reply : Ask → Type) (σ : Type) where
  events : List (Event ι Reply σ)
  programs : (i : ι) → Program Reply (α i)
  state : σ

/-- Lets programs take their turns as a schedule says. A turn of a program that is done is void; the
second part of a turn is what its answer depends on besides the state. -/
def play (answer : τ → (q : Ask) → σ → Reply q × σ) :
    List (ι × τ) → ((i : ι) → Program Reply (α i)) → σ → Played α Reply σ
  | [], ps, s => ⟨[], ps, s⟩
  | (i, t) :: rest, ps, s =>
    match ps i with
    | .done _ => play answer rest ps s
    | .ask q next =>
      let (r, s₁) := answer t q s
      let played := play answer rest (Function.update ps i (next r)) s₁
      { played with events := ⟨i, q, r, s, s₁⟩ :: played.events }

theorem interleaving_play {answer : τ → (q : Ask) → σ → Reply q × σ}
    (hAnswer : ∀ t q s, answers q s (answer t q s).1 (answer t q s).2)
    (schedule : List (ι × τ)) (ps : (i : ι) → Program Reply (α i)) (s : σ) :
    Interleaving answers ps s (play answer schedule ps s).events
      (play answer schedule ps s).programs (play answer schedule ps s).state := by
  induction schedule generalizing ps s with
  | nil => exact .stop ps s
  | cons turn rest ih =>
    unfold play
    split
    · exact ih ps s
    · rename_i hAsk
      exact .turn hAsk (hAnswer _ _ _) (ih _ _)

end Schedules

/-! ## One program alone -/

section Alone

variable {β : Type}

/-- A program that nobody disturbs runs to its end. -/
theorem exists_alone (handle : (q : Ask) → σ → Reply q × σ) (p : Program Reply β) (s : σ) :
    ∃ es, Interleaving (α := fun _ => β) (fun q s r s' => handle q s = (r, s')) (fun _ : Unit => p) s es
      (fun _ => .done (p.run handle s).1) (p.run handle s).2 := by
  induction p generalizing s with
  | done a => exact ⟨[], .stop _ _⟩
  | ask q next ih =>
    obtain ⟨es, hRest⟩ := ih (handle q s).1 (handle q s).2
    refine ⟨⟨(), q, (handle q s).1, s, (handle q s).2⟩ :: es, .turn rfl rfl ?_⟩
    -- what is left of the only program is what it goes on with
    have hLeft : Function.update (fun _ : Unit => Program.ask q next) () (next (handle q s).1) =
        fun _ => next (handle q s).1 := funext fun _ => Function.update_self ..
    rw [hLeft]
    exact hRest

end Alone

/-! ## One program beside others -/

section Beside

variable {κ β : Type} {γ : κ → Type}

/-- What the programs of `beside` return. -/
def BesideResult (β : Type) (γ : κ → Type) : Option κ → Type
  | none => β
  | some k => γ k

/-- One program, named `none`, and any others, each under its own name. -/
def beside (p : Program Reply β) (others : (k : κ) → Program Reply (γ k)) :
    (i : Option κ) → Program Reply (BesideResult β γ i)
  | none => p
  | some k => others k

end Beside

end Latch
