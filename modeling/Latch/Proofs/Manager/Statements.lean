import Latch.Proofs.Manager.Actions

/-!
# Actions, statement by statement

A record call can be several statements. Where the calls of a manager are too coarse, because something
fails or another user of the store takes a turn in the middle of one, an action is seen here as the
script of its statements.

* `Action.attempt` — the statements of an action;
* `Store.Statement.Answers` — how a store answers that may fail, at any statement and in any way.

Main results:

* `run_attempt` — without interruption the statements of an action are the action;
* `Request.asks_attempt` — the statements of a request about properties are about properties;
* `Trace.statement_cases` — how a trace of an attempt can begin.
-/

namespace Latch

open Program (Trace Asks)
open RecordCall (Attempt)

/-- What a question is answered by while the clock shows a given time. -/
def Effect.script (now : Millis) : (q : Effect) → Store.Script q.Reply
  | .readClock => .done now
  | .record call => call.script.run

/-- The statements of an action while the clock shows a given time. -/
def Action.attempt {α : Type} (now : Millis) (x : Action α) : Attempt α :=
  ExceptT.mk (x.run.expand (Effect.script now))

section Attempts

variable {α β : Type} {now : Millis}

theorem attempt_pure (a : α) : Action.attempt now (pure a) = pure a := rfl

theorem attempt_bind (x : Action α) (f : α → Action β) :
    Action.attempt now (x >>= f) = Action.attempt now x >>= fun a => Action.attempt now (f a) := by
  refine (Program.expand_bind (Effect.script now) x.run _).trans ?_
  refine congrArg (Program.bind (x.run.expand (Effect.script now))) (funext fun result => ?_)
  -- an error ends the action on both sides
  cases result <;> rfl

theorem attempt_record (call : RecordCall) :
    Action.attempt now (Manager.record call) = call.script :=
  Program.bind_done call.script.run

/-- An attempt that begins with a statement. -/
theorem run_statement_bind (failed : Failed) (st : Store.Statement) (f : st.Result → Attempt α) :
    (RecordCall.statement failed st >>= f).run = .ask st fun
      | .ok result => (f result).run
      | .error fault => .done (.error (.record failed fault.cause)) := by
  refine congrArg (Program.ask st) (funext fun reply => ?_)
  cases reply <;> rfl

/-- Without interruption the statements of an action are the action. -/
theorem run_attempt (x : Action α) (s : Store) :
    s.run (Action.attempt now x).run = x.run.run (Effect.answer now) s := by
  refine (Program.run_expand (Effect.script now) Store.execute x.run s).trans ?_
  refine congrArg (fun answer => x.run.run answer s) (funext fun q => ?_)
  cases q <;> rfl

/-- The statements of a request about properties are about properties. -/
theorem Request.asks_attempt (enabled : Bool) (request : Request)
    (hAbout : request.isAboutLock = false) :
    (Action.attempt now (request.action enabled)).run.Asks (·.isAboutProperties = true) := by
  refine (asks_action enabled request).expand fun q hq => ?_
  cases hq with
  | readClock => trivial
  | record _ hCall => exact RecordCall.asks_script (hCall.trans hAbout)

end Attempts

/-! ## Statements that may fail -/

/-- How a store that may fail answers: as it should, or with any fault, whether the statement has taken
effect or not. -/
inductive Store.Statement.Answers : Answering Store.Statement.Reply Store
  | executes (st : Store.Statement) (s : Store) :
      Answers st s (Store.execute st s).1 (Store.execute st s).2
  | fails {st : Store.Statement} {s s' : Store} (fault : Store.Fault)
      (hAfter : s' = s ∨ s' = (Store.execute st s).2) : Answers st s (.error fault) s'

namespace Store.Statement.Answers

variable {st : Store.Statement} {s s' : Store} {reply : st.Reply}

theorem execute_eq {result : st.Result} (h : Answers st s (.ok result) s') :
    Store.execute st s = (.ok result, s') := by
  generalize hr : (Except.ok result : st.Reply) = reply at h
  cases h with
  | executes => rfl
  | fails => cases hr

/-- A statement has done nothing, or what it does when it succeeds. -/
theorem after_cases (h : Answers st s reply s') :
    s' = s ∨ ∃ result, Store.execute st s = (.ok result, s') := by
  have hAfter : s' = s ∨ s' = (Store.execute st s).2 := by
    cases h with
    | executes => exact Or.inr rfl
    | fails _ hAfter => exact hAfter
  -- a statement that fails of itself changes nothing either
  refine hAfter.elim Or.inl ?_
  rintro rfl
  cases hExecute : Store.execute st s with
  | mk reply s₁ =>
    cases reply with
    | ok result => exact Or.inr ⟨result, rfl⟩
    | error fault => exact Or.inl (Store.execute_of_error hExecute)

theorem lock?_eq (h : Answers st s reply s') (hAbout : st.isAboutProperties = true) :
    s'.lock? = s.lock? := by
  rcases h.after_cases with rfl | ⟨result, hExecute⟩
  · rfl
  · have hRows := Store.lock?_execute (s := s) hAbout
    rwa [hExecute] at hRows

end Store.Statement.Answers

/-- An attempt that begins with a statement has not begun, goes on with the result of the statement, or
has ended with its fault. -/
theorem Trace.statement_cases {α ι : Type} {answers : Answering Store.Statement.Reply Store}
    {drift : Store → Store → Prop} {actor : ι} {failed : Failed} {st : Store.Statement} {s s' : Store}
    {f : st.Result → Attempt α} {es : List (Event ι Store.Statement.Reply Store)}
    {p : Store.Script (Except Error α)}
    (h : Trace answers drift actor (RecordCall.statement failed st >>= f).run s es p s') :
    (es = [] ∧ p = (RecordCall.statement failed st >>= f).run ∧ drift s s') ∨
      (∃ s₁ s₂ result rest, es = ⟨actor, st, .ok result, s₁, s₂⟩ :: rest ∧ drift s s₁ ∧
        answers st s₁ (.ok result) s₂ ∧ Trace answers drift actor (f result).run s₂ rest p s') ∨
      ∃ s₁ s₂ fault, es = [⟨actor, st, .error fault, s₁, s₂⟩] ∧ drift s s₁ ∧
        answers st s₁ (.error fault) s₂ ∧ p = .done (.error (.record failed fault.cause)) ∧
        drift s₂ s' := by
  rw [run_statement_bind] at h ⊢
  rcases h.ask_cases with hNone | ⟨s₁, reply, s₂, rest, rfl, hDrift, hAnswer, hRest⟩
  · exact Or.inl hNone
  · -- a fault ends the attempt, so nothing comes after it
    cases reply with
    | ok result => exact Or.inr (Or.inl ⟨s₁, s₂, result, rest, rfl, hDrift, hAnswer, hRest⟩)
    | error fault =>
      obtain ⟨rfl, rfl, hDrift'⟩ := hRest.done_inv
      exact Or.inr (Or.inr ⟨s₁, s₂, fault, rfl, hDrift, hAnswer, rfl, hDrift'⟩)

end Latch
