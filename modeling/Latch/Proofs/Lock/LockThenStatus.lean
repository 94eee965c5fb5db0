import Latch.Proofs.Lock.LongestLock

/-!
# A request to lock, and the status right after it

A request to lock is made, and at the same moment the status is read. Whatever the row was, whatever
the clock shows and however long the lock is to last, the row that is stored then is active and has not
expired: the status is that row, and it stays.

* `Lock.requestedEnd` — the unlock time that is asked for, as an integer without bounds.

Main results:

* `Lock.toInt_target` — the unlock time that is asked for is no wrapped sum;
* `Store.Ready.run_lock` — a request succeeds, tells what it has found, and merges its lock into the
  row;
* `lock_then_status` — the outcome, the row and the status, over the whole range of moments.
-/

namespace Latch

/-! ## The unlock time that is asked for -/

/-- The last moment for a negative duration, and otherwise the exact sum, cut off at the last
moment. -/
def Lock.requestedEnd (now duration : Millis) : Int :=
  if duration < 0 then Millis.last.toInt else min (now.toInt + duration.toInt) Millis.last.toInt

theorem Lock.toInt_target (now duration : Millis) :
    (Lock.target now duration).toInt = Lock.requestedEnd now duration :=
  LockCall.toInt_lockAt ⟨duration, none, none⟩ now

theorem Lock.le_requestedEnd (now duration : Millis) : now.toInt ≤ Lock.requestedEnd now duration := by
  rw [← Lock.toInt_target, ← Int64.le_iff_toInt_le]
  exact Lock.le_target now duration

theorem Lock.requestedEnd_le_last (now duration : Millis) :
    Lock.requestedEnd now duration ≤ Millis.last.toInt := by
  rw [← Lock.toInt_target, ← Int64.le_iff_toInt_le]
  exact Millis.le_last _

/-- The later of a requested unlock time and that of an active row is not in the past. -/
theorem Lock.le_elim_max {now requested : Int} (hLe : now ≤ requested) (active : Option Lock) :
    now ≤ active.elim requested fun old => max requested old.unlockTime.toInt := by
  cases active with
  | none => exact hLe
  | some old => exact Int.le_trans hLe (Int.le_max_left _ _)

/-! ## The row afterwards -/

namespace LockOutcome.Tells

variable {requested : Lock} {row : Option Lock} {outcome : LockOutcome}

/-- A row that gives way becomes another one: it was not active, or it ended earlier. -/
theorem isWrite_iff (h : Tells requested row outcome) (hLocked : requested.locked = true) :
    outcome.isWrite = true ↔ Lock.over row requested ≠ row := by
  rw [Lock.over, ← h.isWrite_eq]
  cases h with
  | created => simp [isWrite]
  | @relocked old hInactive =>
    have hOther : requested ≠ old := by
      rintro rfl
      simp [hInactive] at hLocked
    simpa [isWrite] using hOther
  | @extended old hActive hEarlier =>
    have hOther : requested ≠ old := by
      rintro rfl
      exact Int64.lt_irrefl hEarlier
    simpa [isWrite] using hOther
  | unchanged => simp [isWrite]

/-- The row afterwards is active and ends at the later of the two unlock times, where a row that was
not active does not count. -/
theorem over_eq (h : Tells requested row outcome) (hLocked : requested.locked = true) :
    ∃ lock, Lock.over row requested = some lock ∧ lock.locked = true ∧
      lock.unlockTime.toInt = ((row.filter Lock.locked).elim requested.unlockTime.toInt fun old =>
        max requested.unlockTime.toInt old.unlockTime.toInt) := by
  rw [Lock.over, ← h.isWrite_eq]
  cases h with
  | created => exact ⟨requested, rfl, hLocked, rfl⟩
  | relocked hInactive =>
    refine ⟨requested, rfl, hLocked, ?_⟩
    rw [Option.filter_some_neg (by simp [hInactive])]
    rfl
  | extended hActive hEarlier =>
    refine ⟨requested, rfl, hLocked, ?_⟩
    rw [Option.filter_some_pos hActive]
    exact (Int.max_eq_left (Int.le_of_lt (Int64.lt_iff_toInt_lt.mp hEarlier))).symm
  | @unchanged old hActive hLate =>
    refine ⟨old, rfl, hActive, ?_⟩
    rw [Option.filter_some_pos hActive]
    exact (Int.max_eq_right (Int64.le_iff_toInt_le.mp hLate)).symm

end LockOutcome.Tells

/-- A request to lock succeeds, tells what it has found, and merges its lock into the row. -/
theorem Store.Ready.run_lock {s : Store} (h : s.Ready) (key : Key) (duration : Millis)
    (reasonCode reason : Option String) (now : Millis) :
    ∃ outcome s', (Manager.lock true key duration reasonCode reason).run.run (Effect.answer now) s =
        (.ok outcome, s') ∧
      s'.Ready ∧
      LockOutcome.Tells (.lockedUntil (Lock.target now duration) reasonCode reason) (s.lock? key)
        outcome ∧
      s'.lock? = Function.update s.lock? key
        (Lock.over (s.lock? key) (.lockedUntil (Lock.target now duration) reasonCode reason)) := by
  rw [run_lock_eq]
  obtain ⟨outcome, s', hRun, hReady, hTells, hRows⟩ :=
    h.run_lockUntil key (.lockedUntil (Lock.target now duration) reasonCode reason) now
  exact ⟨outcome, s', hRun, hReady, hTells, hRows.trans (Lock.update_over ..).symm⟩

/-- **A request to lock, and the status right after it.** For every row, every moment and every
duration, while nobody else writes and the store does not fail:

* the unlock time that is asked for is the last moment for a negative duration and otherwise the exact
  sum, cut off at the last moment; it is a moment, and not before the present one;
* the request succeeds, and its outcome tells what the row was: none, one that is not active, an active
  one that ends earlier, or an active one that does not;
* it counts as a write exactly if the row is another one afterwards;
* the row is active then and ends at the later of the unlock time that was asked for and that of the
  row before, if it was active; the rows of other keys are as before;
* the status at the same moment is that row, never "unlocked", and the store stays as it is. -/
theorem lock_then_status {s : Store} (hReady : s.Ready) (key : Key) (now duration : Millis)
    (reasonCode reason : Option String) :
    (now.toInt ≤ Lock.requestedEnd now duration ∧
      Int64.minValue.toInt ≤ Lock.requestedEnd now duration ∧
      Lock.requestedEnd now duration ≤ Int64.maxValue.toInt) ∧
    ∃ outcome s' row,
      (Manager.lock true key duration reasonCode reason).run.run (Effect.answer now) s =
        (.ok outcome, s') ∧
      (outcome = .created ↔ s.lock? key = none) ∧
      (outcome = .relocked ↔ ∃ old, s.lock? key = some old ∧ old.locked = false) ∧
      (outcome = .extended ↔ ∃ old, s.lock? key = some old ∧ old.locked = true ∧
        old.unlockTime.toInt < Lock.requestedEnd now duration) ∧
      (outcome = .unchanged ↔ ∃ old, s.lock? key = some old ∧ old.locked = true ∧
        Lock.requestedEnd now duration ≤ old.unlockTime.toInt) ∧
      (outcome.isWrite = true ↔ s'.lock? key ≠ s.lock? key) ∧
      s'.lock? = Function.update s.lock? key (some row) ∧
      row.locked = true ∧
      row.unlockTime.toInt = (((s.lock? key).filter Lock.locked).elim
        (Lock.requestedEnd now duration) fun old =>
          max (Lock.requestedEnd now duration) old.unlockTime.toInt) ∧
      row ≠ .unlocked ∧
      (Manager.status true key).run.run (Effect.answer now) s' = (.ok row, s') := by
  have hLe : now.toInt ≤ Lock.requestedEnd now duration := Lock.le_requestedEnd now duration
  refine ⟨⟨hLe, Int.le_trans now.minValue_le_toInt hLe, Lock.requestedEnd_le_last now duration⟩, ?_⟩
  obtain ⟨outcome, s', hRun, hReady', hTells, hRows⟩ :=
    hReady.run_lock key duration reasonCode reason now
  obtain ⟨row, hOver, hLocked, hEnd⟩ := hTells.over_eq rfl
  have hExtended := hTells.extended_iff
  have hUnchanged := hTells.unchanged_iff
  -- the lock that is asked for ends at the moment that is asked for
  simp only [Lock.lockedUntil, Int64.lt_iff_toInt_lt, Int64.le_iff_toInt_le, Lock.toInt_target]
    at hEnd hExtended hUnchanged
  rw [hOver] at hRows
  have hRow : s'.lock? key = some row := by rw [hRows, Function.update_self]
  have hLasts : row.isExpiredAt now = false := by
    rw [Lock.not_isExpiredAt_iff, Int64.le_iff_toInt_le, hEnd]
    exact Lock.le_elim_max hLe _
  refine ⟨outcome, s', row, hRun, hTells.created_iff, hTells.relocked_iff, hExtended, hUnchanged, ?_,
    hRows, hLocked, hEnd, ?_, hReady'.run_status_of_not_expired hRow hLasts⟩
  · rw [hRow, ← hOver]
    exact hTells.isWrite_iff rfl
  · rintro rfl
    cases hLocked

/-! The row is marked as active but ended a millisecond ago, and the new lock is to last no time at
all; the clock stands before 1970. -/

theorem lock_then_status_no_time :
    (Store.holding ⟨"alice", 1, "sms-otp"⟩ (.lockedUntil (-6) none none)).Ready ∧
    ∃ s', (Manager.lock true ⟨"alice", 1, "sms-otp"⟩ 0 (some "NEW") none).run.run (Effect.answer (-5))
        (.holding ⟨"alice", 1, "sms-otp"⟩ (.lockedUntil (-6) none none)) = (.ok .extended, s') ∧
      (Manager.status true ⟨"alice", 1, "sms-otp"⟩).run.run (Effect.answer (-5)) s' =
        (.ok (.lockedUntil (-5) (some "NEW") none), s') := by
  have hReady : (Store.holding ⟨"alice", 1, "sms-otp"⟩ (.lockedUntil (-6) none none)).Ready :=
    ⟨rfl, rfl, fun _ => rfl⟩
  refine ⟨hReady, ?_⟩
  obtain ⟨-, outcome, s', row, hRun, -, -, -, -, -, hRows, -, -, -, hStatus⟩ :=
    lock_then_status hReady ⟨"alice", 1, "sms-otp"⟩ (-5) 0 (some "NEW") none
  have hLock : (Manager.lock true ⟨"alice", 1, "sms-otp"⟩ 0 (some "NEW") none).run.run
      (Effect.answer (-5)) (.holding ⟨"alice", 1, "sms-otp"⟩ (.lockedUntil (-6) none none)) =
        (.ok .extended, .holding ⟨"alice", 1, "sms-otp"⟩ (.lockedUntil (-5) (some "NEW") none)) := by
    rfl
  cases hLock.symm.trans hRun
  have hRow : row = .lockedUntil (-5) (some "NEW") none := by
    have hSame := congrFun hRows ⟨"alice", 1, "sms-otp"⟩
    rw [Function.update_self] at hSame
    exact (Option.some.inj hSame).symm
  exact ⟨_, hLock, hRow ▸ hStatus⟩

end Latch
