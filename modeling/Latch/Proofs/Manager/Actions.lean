import Latch.Proofs.Lock.Expiry
import Latch.Proofs.Manager.Answers

/-!
# The requests about locks, step by step

What each request asks of its surroundings, in a form in which traces can be taken apart.

* `Manager.lockUntil` — what a request to lock does once it knows the unlock time;
* `Manager.statusOf` — what a request for a status does with the row that it has read;
* `Manager.AsksForStatus` — the questions of a request for a status;
* `Request.AsksAbout` — questions that keep to what a request is about.

Main results:

* `Manager.lock_of_neg`, `Manager.lock_of_not_neg` — a request to lock reads the clock at most once,
  and before everything else;
* `Manager.merge_cases` — which write, if any, follows the row that was read;
* `Manager.asks_status` — a request for a status asks nothing else;
* `Request.asks_action` — every request keeps to its key, and to locks or to properties.
-/

namespace Latch.Manager

open Program (Asks)

/-! ## Requests to lock -/

/-- Reads the row of a key and writes a lock over it. -/
def lockUntil (key : Key) (requested : Lock) : Action LockOutcome := do
  let row : Option Lock ← record (.getLock key)
  merge key requested row

theorem lock_of_neg {key : Key} {duration : Millis} {reasonCode reason : Option String}
    (h : duration < 0) :
    lock true key duration reasonCode reason =
      lockUntil key (.lockedUntil .last reasonCode reason) := by
  have hTarget : target duration = pure .last := if_pos h
  show (target duration >>= fun unlockTime =>
    lockUntil key (.lockedUntil unlockTime reasonCode reason)) = _
  rw [hTarget, pure_bind]

theorem lock_of_not_neg {key : Key} {duration : Millis} {reasonCode reason : Option String}
    (h : ¬ duration < 0) :
    lock true key duration reasonCode reason =
      now >>= fun now => lockUntil key (.lockedUntil (now.later duration) reasonCode reason) := by
  have hTarget : target duration = now >>= fun now => pure (now.later duration) := if_neg h
  show (target duration >>= fun unlockTime =>
    lockUntil key (.lockedUntil unlockTime reasonCode reason)) = _
  rw [hTarget, bind_assoc]
  simp only [pure_bind]

/-- Which write, if any, follows the row that was read. -/
theorem merge_cases (key : Key) (requested : Lock) (row : Option Lock) :
    (row = none ∧ merge key requested row =
      record (.insertLock key requested) >>= fun _ => pure .created) ∨
    (∃ old, row = some old ∧ old.locked = false ∧ merge key requested row =
      record (.updateLock key requested) >>= fun _ => pure .relocked) ∨
    (∃ old, row = some old ∧ old.locked = true ∧ old.unlockTime < requested.unlockTime ∧
      merge key requested row = record (.updateLock key requested) >>= fun _ => pure .extended) ∨
    ∃ old, row = some old ∧ old.locked = true ∧ requested.unlockTime ≤ old.unlockTime ∧
      merge key requested row = pure .unchanged := by
  cases row with
  | none => exact Or.inl ⟨rfl, rfl⟩
  | some old =>
    refine Or.inr ?_
    cases hLocked : old.locked with
    | false => exact Or.inl ⟨old, rfl, hLocked, by simp [merge, hLocked]⟩
    | true =>
      refine Or.inr ?_
      by_cases hLt : old.unlockTime < requested.unlockTime
      · exact Or.inl ⟨old, rfl, hLocked, hLt, by simp [merge, hLocked, hLt]⟩
      · exact Or.inr ⟨old, rfl, hLocked, Int64.not_lt.mp hLt, by simp [merge, hLocked, hLt]⟩

/-! ## Requests for a status -/

/-- Returns the lock that was read, or removes its row if it has expired. -/
def statusOf (key : Key) : Option Lock → Action Lock
  | none => pure .unlocked
  | some lock => now >>= fun now => if lock.isExpiredAt now then purge key now else pure lock

theorem status_eq (key : Key) : status true key = record (.getLock key) >>= statusOf key := by
  refine congrArg (record (.getLock key) >>= ·) (funext fun row => ?_)
  cases row <;> rfl

/-- The questions of a request for the status of a key. -/
inductive AsksForStatus (key : Key) : Effect → Prop
  | readClock : AsksForStatus key .readClock
  | getLock : AsksForStatus key (.record (.getLock key))
  | deleteExpiredLock (now : Millis) : AsksForStatus key (.record (.deleteExpiredLock key now))

theorem asks_statusAfterPurge (key : Key) (now : Millis) :
    (statusAfterPurge key now).run.Asks (AsksForStatus key) := by
  refine Asks.attempt_bind (asks_record .getLock) fun row => ?_
  cases row with
  | none => trivial
  | some lock =>
    dsimp only
    split <;> trivial

theorem asks_purge (key : Key) (now : Millis) : (purge key now).run.Asks (AsksForStatus key) := by
  refine Asks.attempt_bind (asks_record (.deleteExpiredLock now)) fun removed => ?_
  cases removed with
  | true => trivial
  | false => exact asks_statusAfterPurge key now

theorem asks_status (enabled : Bool) (key : Key) :
    (status enabled key).run.Asks (AsksForStatus key) := by
  cases enabled with
  | false => trivial
  | true =>
    rw [status_eq]
    refine Asks.attempt_bind (asks_record .getLock) fun row => ?_
    cases row with
    | none => trivial
    | some lock =>
      refine ⟨.readClock, fun clock => ?_⟩
      show Asks _ (if lock.isExpiredAt clock then purge key clock else pure lock : Action Lock).run
      split
      · exact asks_purge key clock
      · trivial

end Latch.Manager

/-! ## All requests -/

namespace Latch.Request

open Program (Asks)

/-- A question that is no call, or a call on the key of a request that is about a lock exactly if the
request is. -/
inductive AsksAbout (request : Request) : Effect → Prop
  | readClock : AsksAbout request .readClock
  | record {call : RecordCall} (hKey : call.key = request.key)
      (hAbout : call.isAboutLock = request.isAboutLock) : AsksAbout request (.record call)

theorem asks_ensureEnabled {α : Type} {P : Effect → Prop} {x : Action α} (enabled : Bool)
    (hx : x.run.Asks P) : (Manager.ensureEnabled enabled >>= fun _ => x).run.Asks P := by
  cases enabled with
  | false => trivial
  | true => exact hx

theorem asks_lockUntil (key : Key) (requested : Lock) {request : Request}
    (hKey : request.key = key) (hAbout : request.isAboutLock = true) :
    (Manager.lockUntil key requested).run.Asks request.AsksAbout := by
  refine Asks.attempt_bind (asks_record (.record hKey.symm hAbout.symm)) fun row => ?_
  rcases Manager.merge_cases key requested row with ⟨-, hMerge⟩ | ⟨-, -, -, hMerge⟩ |
    ⟨-, -, -, -, hMerge⟩ | ⟨-, -, -, -, hMerge⟩ <;> rw [hMerge]
  · exact Asks.attempt_bind (asks_record (.record hKey.symm hAbout.symm)) fun _ => trivial
  · exact Asks.attempt_bind (asks_record (.record hKey.symm hAbout.symm)) fun _ => trivial
  · exact Asks.attempt_bind (asks_record (.record hKey.symm hAbout.symm)) fun _ => trivial
  · trivial

theorem asks_writeDiff (key : Key) (diff : PropertyDiff) {request : Request}
    (hKey : request.key = key) (hAbout : request.isAboutLock = false) :
    (Manager.writeDiff key diff).run.Asks request.AsksAbout := by
  have hAdd : (Manager.record (.addProperties key diff.toAdd)).run.Asks request.AsksAbout :=
    asks_record (.record hKey.symm hAbout.symm)
  have hUpdate : (if (!diff.toUpdate.isEmpty) = true then
      (Manager.record (.updateProperties key diff.toUpdate) >>= fun _ => pure diff)
    else pure diff : Action PropertyDiff).run.Asks request.AsksAbout := by
    split
    · exact Asks.attempt_bind (asks_record (.record hKey.symm hAbout.symm)) fun _ => trivial
    · trivial
  unfold Manager.writeDiff
  dsimp only
  -- whether there are names to add or not, the updates come next
  split
  · exact Asks.attempt_bind hAdd fun _ => hUpdate
  · exact hUpdate

/-- Every request keeps to its key, and to locks or to properties. -/
theorem asks_action (enabled : Bool) (request : Request) :
    (request.action enabled).run.Asks request.AsksAbout := by
  cases request with
  | status key =>
    -- all its questions are known
    refine (Manager.asks_status enabled key).mono fun q hq => ?_
    cases hq with
    | readClock => exact .readClock
    | getLock => exact .record rfl rfl
    | deleteExpiredLock => exact .record rfl rfl
  | lock key duration reasonCode reason =>
    cases enabled with
    | false => trivial
    | true =>
      by_cases hDuration : duration < 0
      · rw [action, Manager.lock_of_neg hDuration]
        exact asks_lockUntil key _ rfl rfl
      · rw [action, Manager.lock_of_not_neg hDuration]
        exact ⟨.readClock, fun now => asks_lockUntil key _ rfl rfl⟩
  | setProperties key entries =>
    refine asks_ensureEnabled enabled ?_
    split
    · trivial
    · exact Asks.attempt_bind (asks_record (.record rfl rfl)) fun existing =>
        asks_writeDiff key _ rfl rfl
  | _ => exact asks_ensureEnabled enabled (asks_record (.record rfl rfl))

end Latch.Request
