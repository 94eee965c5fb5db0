import Latch.Proofs.Manager.Actions

/-!
# Requests one after another

The manager takes requests of all kinds, one after another. Its surroundings answer as they like: the
clock may show any time at any reading, and every record call may fail, whether it has taken effect
or not. A request may also be given up between two questions.

* `Request.Serial` — the requests of a run; its events are labelled with them.

Main results:

* `Request.Serial.keeps` — what each request keeps holds at every event of a run and at its end;
* `Request.keeps_other` — a request that is not about the lock of a key leaves it alone.
-/

namespace Latch.Request

open Program (Trace)

variable {s s' : Store} {es : List (Event Request Effect.Reply Store)}

/-- Requests are carried out one after another, each up to some point. -/
inductive Serial : Store → List (Event Request Effect.Reply Store) → Store → Prop
  | done (s : Store) : Serial s [] s
  | next {request : Request} {enabled : Bool} {s s₁ s' : Store}
      {es rest : List (Event Request Effect.Reply Store)}
      {p : Program Effect.Reply (Except Error request.Answer)}
      (hRequest : Trace Effect.Answers (· = ·) request (request.action enabled).run s es p s₁)
      (hRest : Serial s₁ rest s') : Serial s (es ++ rest) s'

/-- What each request keeps holds at every event of a run and at its end. Events of a request may be
judged by what has held when it began. -/
theorem Serial.keeps {I : Store → Prop} {P Q : Event Request Effect.Reply Store → Prop}
    (h : Serial s es s') (hP : ∀ e ∈ es, P e)
    (hRequest : ∀ {request : Request} {enabled s es p s'},
      Trace Effect.Answers (· = ·) request (request.action enabled).run s es p s' →
      (∀ e ∈ es, P e) → I s → ∀ e ∈ es, I e.before → Q e)
    (hQ : ∀ e, I e.before → Q e → I e.after) (hs : I s) :
    (∀ e ∈ es, I e.before ∧ Q e) ∧ I s' := by
  induction h with
  | done => exact ⟨by simp, hs⟩
  | next hTrace _ ih =>
    obtain ⟨hHead, hTail⟩ := List.forall_mem_append.mp hP
    -- the invariant is carried through the events of the request, then through the rest
    have hOwn := hRequest hTrace hHead hs
    obtain ⟨hBefore, hAfter⟩ := hTrace.keeps (fun _ _ hEq hI => hEq ▸ hI)
      (fun e he hI => hQ e hI (hOwn e he hI)) hs
    obtain ⟨hRest, hEnd⟩ := ih hTail hAfter
    exact ⟨List.forall_mem_append.mpr ⟨fun e he => ⟨hBefore e he, hOwn e he (hBefore e he)⟩, hRest⟩,
      hEnd⟩

/-- A request that is about another key, or about properties, leaves the lock of a key alone. -/
theorem keeps_other {request : Request} {enabled : Bool} {key : Key}
    {p : Program Effect.Reply (Except Error request.Answer)}
    (h : Trace Effect.Answers (· = ·) request (request.action enabled).run s es p s')
    (hOther : request.key ≠ key ∨ request.isAboutLock = false) :
    ∀ e ∈ es, e.after.lock? key = e.before.lock? key := by
  intro e he
  have hAnswer := h.answered e he
  have hAsks := h.asked (asks_action enabled request) e he
  obtain ⟨actor, question, reply, before, after⟩ := e
  cases hAsks with
  | readClock =>
    obtain rfl : after = before := Effect.Answers.clock_eq hAnswer
    rfl
  | record hKey hAbout =>
    rcases hOther with hNe | hProperties
    · exact hAnswer.lockChange.of_ne (hKey ▸ hNe.symm)
    · exact congrFun (hAnswer.partly.lock?_eq (hAbout.trans hProperties)) key

end Latch.Request
