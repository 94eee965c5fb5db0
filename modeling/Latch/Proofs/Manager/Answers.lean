import Latch.Manager
import Latch.Proofs.Run.Interleaving
import Latch.Proofs.Store.LockRows

/-!
# What the manager is answered

The surroundings of the manager are a clock and a store. The clock may show any time at any reading,
so a run says nothing about how it moves unless its readings are restricted. A record call returns
what the store says, or fails with any error after any part of its statements.

* `Effect.Answers` — every answer that can be met;
* `Effect.Reliable`, `Effect.answer` — the answers without a failure of the surroundings;
* `Event.IsRecord`, `readings` — the record calls and the clock readings among the events of a run.

Main results:

* `Effect.Answers.lockChange` — what an answer can have done to the lock rows;
* `Trace.record_cases`, `Trace.now_cases` — how a trace of an action can begin.
-/

namespace Latch

open Program (Trace Asks)

namespace Effect

/-- How the surroundings can answer. A call that fails may have taken effect, in part or in full. -/
inductive Answers : Answering Effect.Reply Store
  | clock (now : Millis) (s : Store) : Answers .readClock s now s
  | returns (call : RecordCall) (s : Store) :
      Answers (.record call) s (s.perform call).1 (s.perform call).2
  | fails {call : RecordCall} {s s' : Store} (e : Error) (hPartly : call.Partly s s') :
      Answers (.record call) s (.error e) s'

/-- The answers of surroundings that never fail of their own. -/
inductive Reliable : Answering Effect.Reply Store
  | clock (now : Millis) (s : Store) : Reliable .readClock s now s
  | returns (call : RecordCall) (s : Store) :
      Reliable (.record call) s (s.perform call).1 (s.perform call).2

/-- The answer of reliable surroundings whose clock shows a given time. -/
def answer (now : Millis) : (q : Effect) → Store → q.Reply × Store
  | .readClock, s => (now, s)
  | .record call, s => s.perform call

theorem reliable_answer (now : Millis) (q : Effect) (s : Store) :
    Reliable q s (answer now q s).1 (answer now q s).2 := by
  cases q with
  | readClock => exact .clock now s
  | record call => exact .returns call s

theorem Reliable.answers {q : Effect} {s s' : Store} {r : q.Reply} (h : Reliable q s r s') :
    Answers q s r s' := by
  cases h with
  | clock => exact .clock ..
  | returns => exact .returns ..

theorem Reliable.perform_eq {call : RecordCall} {s s' : Store} {r : call.Reply}
    (h : Reliable (.record call) s r s') : s.perform call = (r, s') := by
  cases h
  rfl

theorem Reliable.clock_eq {s s' : Store} {now : Millis} (h : Reliable .readClock s now s') :
    s' = s := by
  cases h
  rfl

/-- A schedule of clock times is a run. -/
theorem answers_play {ι : Type} [DecidableEq ι] {α : ι → Type} (schedule : List (ι × Millis))
    (ps : (i : ι) → Program Effect.Reply (α i)) (s : Store) :
    Interleaving Answers ps s (play answer schedule ps s).events (play answer schedule ps s).programs
      (play answer schedule ps s).state :=
  (interleaving_play reliable_answer schedule ps s).mono fun _ _ _ _ => Reliable.answers

theorem Answers.clock_eq {s s' : Store} {now : Millis} (h : Answers .readClock s now s') :
    s' = s := by
  cases h
  rfl

theorem Answers.partly {call : RecordCall} {s s' : Store} {r : call.Reply}
    (h : Answers (.record call) s r s') : call.Partly s s' := by
  cases h with
  | returns => exact RecordCall.partly_perform call s
  | fails _ hPartly => exact hPartly

/-- A call that succeeds is one that the store has carried out. -/
theorem Answers.perform_eq {call : RecordCall} {s s' : Store} {value : call.Value}
    (h : Answers (.record call) s (.ok value) s') : s.perform call = (.ok value, s') := by
  generalize hr : (Except.ok value : call.Reply) = r at h
  cases h with
  | returns => rfl
  | fails => cases hr

theorem Answers.lockChange {call : RecordCall} {s s' : Store} {r : call.Reply}
    (h : Answers (.record call) s r s') : call.LockChange s.lock? s'.lock? :=
  h.partly.lockChange

end Effect

/-! ## Events -/

namespace Event

variable {ι σ : Type}

/-- The event is a record call. -/
def IsRecord (e : Event ι Effect.Reply σ) : Prop := ∃ call, e.question = .record call

/-- What the clock showed, if it was read. -/
def reading? : Event ι Effect.Reply σ → Option Millis
  | ⟨_, .readClock, now, _, _⟩ => some now
  | _ => none

end Event

/-- What the clock showed at each reading of a run. -/
def readings {ι σ : Type} (es : List (Event ι Effect.Reply σ)) : List Millis :=
  es.filterMap Event.reading?

/-! ## How a trace of an action can begin -/

section Actions

variable {ι β : Type} {drift : Store → Store → Prop} {actor : ι} {s s' : Store}
  {es : List (Event ι Effect.Reply Store)}

theorem run_record_bind (call : RecordCall) (f : call.Value → Action β) :
    (Manager.record call >>= f).run = .ask (.record call) fun
      | .ok value => (f value).run
      | .error e => .done (.error e) := by
  refine congrArg (Program.ask (Effect.record call)) (funext fun r => ?_)
  cases r <;> rfl

theorem run_now_bind (f : Millis → Action β) :
    (Manager.now >>= f).run = .ask .readClock fun now => (f now).run := rfl

/-- An action that begins with a record call has not begun, goes on with the value that the call
returned, or has ended with its error. -/
theorem Trace.record_cases {call : RecordCall} {f : call.Value → Action β}
    {p : Program Effect.Reply (Except Error β)}
    (h : Trace Effect.Answers drift actor (Manager.record call >>= f).run s es p s') :
    (es = [] ∧ p = (Manager.record call >>= f).run ∧ drift s s') ∨
      (∃ s₁ s₂ value rest, es = ⟨actor, .record call, .ok value, s₁, s₂⟩ :: rest ∧ drift s s₁ ∧
        s₁.perform call = (.ok value, s₂) ∧
        Trace Effect.Answers drift actor (f value).run s₂ rest p s') ∨
      ∃ s₁ s₂ e, es = [⟨actor, .record call, .error e, s₁, s₂⟩] ∧ drift s s₁ ∧
        call.Partly s₁ s₂ ∧ p = .done (.error e) ∧ drift s₂ s' := by
  rw [run_record_bind] at h ⊢
  rcases h.ask_cases with hNone | ⟨s₁, r, s₂, rest, rfl, hDrift, hAnswer, hRest⟩
  · exact Or.inl hNone
  · -- an error ends the action, so nothing comes after it
    cases r with
    | ok value =>
      exact Or.inr (Or.inl ⟨s₁, s₂, value, rest, rfl, hDrift, hAnswer.perform_eq, hRest⟩)
    | error e =>
      obtain ⟨rfl, rfl, hDrift'⟩ := hRest.done_inv
      exact Or.inr (Or.inr ⟨s₁, s₂, e, rfl, hDrift, hAnswer.partly, rfl, hDrift'⟩)

theorem Trace.now_cases {f : Millis → Action β} {p : Program Effect.Reply (Except Error β)}
    (h : Trace Effect.Answers drift actor (Manager.now >>= f).run s es p s') :
    (es = [] ∧ p = (Manager.now >>= f).run ∧ drift s s') ∨
      ∃ s₁ rest, ∃ now : Millis, es = ⟨actor, .readClock, now, s₁, s₁⟩ :: rest ∧ drift s s₁ ∧
        Trace Effect.Answers drift actor (f now).run s₁ rest p s' := by
  rw [run_now_bind] at h ⊢
  rcases h.ask_cases with hNone | ⟨s₁, now, s₂, rest, rfl, hDrift, hAnswer, hRest⟩
  · exact Or.inl hNone
  · cases hAnswer.clock_eq
    exact Or.inr ⟨s₁, rest, now, rfl, hDrift, hRest⟩

theorem asks_record {P : Effect → Prop} {call : RecordCall} (hCall : P (.record call)) :
    (Manager.record call).run.Asks P :=
  ⟨hCall, fun _ => trivial⟩

end Actions

end Latch
