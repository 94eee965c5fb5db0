import Latch.Session.Step

/-!
# Runs of a session

A session takes steps one after another, and tells of each step how it came out and which record calls
it made. Nothing else happens to its store unless something waits to interfere.

* `Session.Taken` — a step that was taken, with what came of it;
* `Session.takeAll` — takes one step after another;
* `Session.Step.isUse` — operations on locks and properties, and what moves the clock and the
  switch.

Main results:

* `Session.performObserved_of_quiet` — without interference a call is only noted.
-/

namespace Latch.Session

/-- A step that was taken: how it came out, and the record calls that it made. -/
structure Taken where
  step : Step
  outcome : Outcome
  calls : List RecordCall.Method

/-- Takes one step after another. -/
def takeAll : List Step → Session → List Taken × Session
  | [], s => ([], s)
  | step :: rest, s =>
    let ((outcome, calls), s) := s.take step
    let (taken, s) := takeAll rest s
    (⟨step, outcome, calls⟩ :: taken, s)

/-- Operations on locks and properties, what moves the clock and the switch, and what tells about
them. Whatever else can be asked of a session concerns its whole store. -/
def Step.isUse : Step → Bool
  | .request _ | .record _ | .isEnabled | .describe | .enable | .disable | .advance _ | .setClock _ =>
    true
  | _ => false

theorem takeAll_cons (step : Step) (rest : List Step) (s : Session) :
    takeAll (step :: rest) s =
      (⟨step, (s.take step).1.1, (s.take step).1.2⟩ :: (takeAll rest (s.take step).2).1,
        (takeAll rest (s.take step).2).2) := rfl

/-- What was noted of calls before a step makes no difference to it. -/
theorem takeAll_uncalled (steps : List Step) (s : Session) :
    (takeAll steps { s with calls := [] }).1 = (takeAll steps s).1 ∧
      ({ (takeAll steps { s with calls := [] }).2 with calls := [] } : Session) =
        { (takeAll steps s).2 with calls := [] } := by
  cases steps <;> exact ⟨rfl, rfl⟩

theorem takeAll_append (early late : List Step) (s : Session) :
    takeAll (early ++ late) s =
      ((takeAll early s).1 ++ (takeAll late (takeAll early s).2).1,
        (takeAll late (takeAll early s).2).2) := by
  induction early generalizing s with
  | nil => rfl
  | cons step rest ih =>
    rw [List.cons_append, takeAll_cons, takeAll_cons, ih]
    rfl

/-! ## Record calls -/

theorem perform_eq (s : Session) (call : RecordCall) :
    s.perform call = ((s.store.store.perform call).1,
      { s with store := { s.store with store := (s.store.store.perform call).2 } }) := rfl

/-- Without interference a call is only noted. -/
theorem performObserved_of_quiet {s : Session} (h : s.interferences = []) (call : RecordCall) :
    s.performObserved call = { s with calls := call.method :: s.calls }.perform call := by
  -- nothing is due, neither before the call nor after it
  have hQuiet : ∀ (s : Session) phase, s.interferences = [] → s.interfere call phase = (.ok (), s) := by
    intro s phase hNone
    obtain ⟨⟩ := s
    simp only at hNone
    simp [interfere, hNone, Interference.due]
  have hNoted : ({ s with calls := call.method :: s.calls } : Session).interferences = [] := h
  unfold performObserved
  generalize ({ s with calls := call.method :: s.calls } : Session) = noted at hNoted
  rw [hQuiet noted .before hNoted]
  dsimp only
  cases hPerform : noted.perform call with
  | mk reply after =>
    have hAfter : after.interferences = [] := by
      rw [perform_eq] at hPerform
      cases hPerform
      exact hNoted
    cases reply with
    | error e => rfl
    | ok value =>
      dsimp only
      rw [hQuiet after .after hAfter]

/-- An answer that is taken over. -/
theorem answered_eq {ε α : Type} (failure : ε → Failure) (answer : α → Answer)
    (r : Except ε α × Session) :
    answered failure answer r =
      ((match r.1 with
        | .ok a => .ok (answer a)
        | .error e => .error (failure e)), r.2) := by
  obtain ⟨result, s⟩ := r
  cases result <;> rfl

end Latch.Session
