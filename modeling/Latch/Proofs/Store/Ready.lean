import Latch.Proofs.Store.Frame
import Latch.Proofs.Store.LockRows

/-!
# Stores without failures

A statement about a lock can fail in four ways: the store is closed, the table is missing, a guard
forbids the write, or an inserted row is there already. A store that is ready rules out the first
three, and no statement changes that.

* `Store.Ready` — the store is open, it has its table of locks, and no guard watches that table.

Main results:

* `Store.Ready.perform_getLock` … `Store.Ready.perform_deleteExpiredLock` — the calls about locks
  succeed on a ready store.
-/

namespace Latch.Store

structure Ready (s : Store) : Prop where
  isOpen : s.closed = false
  hasLocks : s.tables.locks.isSome = true
  permits : ∀ kind, s.tables.forbids .locks kind none = false

/-! ## Statements -/

theorem Ready.exists_locks {s : Store} (h : s.Ready) : ∃ locks, s.tables.locks = some locks :=
  Option.isSome_iff_exists.mp h.hasLocks

/-- Other rows in the table of locks make no difference. -/
theorem Ready.with_locks {s : Store} (h : s.Ready) (locks : LockTable) :
    Ready { s with tables := { s.tables with locks := some locks } } :=
  ⟨h.isOpen, rfl, h.permits⟩

theorem Ready.execute_selectLock {s : Store} (h : s.Ready) (key : Key) :
    execute (.selectLock key) s = (.ok (s.lock? key), s) := by
  obtain ⟨locks, hLocks⟩ := h.exists_locks
  refine execute_eq_ok h.isOpen ?_
  simp [Tables.execute, hLocks, lock?]

theorem Ready.execute_insertLock {s : Store} (h : s.Ready) {key : Key} (lock : Lock)
    (hNew : s.lock? key = none) :
    ∃ s', execute (.insertLock key lock) s = (.ok (), s') ∧ s'.Ready := by
  obtain ⟨locks, hLocks⟩ := h.exists_locks
  have hGet : locks.get? key = none := by simpa [lock?, hLocks] using hNew
  cases hInsert : locks.insert? key lock with
  | none => simp [Table.insert?_eq_none_iff, hGet] at hInsert
  | some locks' =>
    refine ⟨_, execute_eq_ok h.isOpen ?_, h.with_locks locks'⟩
    simp [Tables.execute, Tables.insertLock, hLocks, h.permits, hInsert]

theorem Ready.execute_insertLock_duplicate {s : Store} (h : s.Ready) {key : Key} (lock : Lock)
    (hOld : s.lock? key ≠ none) :
    execute (.insertLock key lock) s = (.error .duplicate, s) := by
  obtain ⟨locks, hLocks⟩ := h.exists_locks
  have hGet : (locks.get? key).isSome = true := by
    simpa [lock?, hLocks, Option.isSome_iff_ne_none] using hOld
  have hInsert : locks.insert? key lock = none := Table.insert?_eq_none_iff.mpr hGet
  refine execute_eq_error h.isOpen ?_
  simp [Tables.execute, Tables.insertLock, hLocks, h.permits, hInsert]

theorem Ready.execute_updateLock {s : Store} (h : s.Ready) (key : Key) (lock : Lock) :
    ∃ s', execute (.updateLock key lock) s = (.ok (), s') ∧ s'.Ready := by
  obtain ⟨locks, hLocks⟩ := h.exists_locks
  refine ⟨_, execute_eq_ok h.isOpen ?_, h.with_locks (locks.update key lock)⟩
  simp [Tables.execute, Tables.updateLock, hLocks, h.permits]

theorem Ready.deleteLockWhere {s : Store} (h : s.Ready) (key : Key) (test : Lock → Bool) :
    ∃ found locks, s.tables.deleteLockWhere key test =
      .ok (found, { s.tables with locks := some locks }) := by
  obtain ⟨locks, hLocks⟩ := h.exists_locks
  exact ⟨_, _, by simp only [Tables.deleteLockWhere, hLocks, h.permits, Bool.and_false]; rfl⟩

theorem Ready.execute_deleteLock {s : Store} (h : s.Ready) (key : Key) :
    ∃ s', execute (.deleteLock key) s = (.ok (), s') ∧ s'.Ready := by
  obtain ⟨found, locks, hDelete⟩ := h.deleteLockWhere key fun _ => true
  refine ⟨_, execute_eq_ok h.isOpen ?_, h.with_locks locks⟩
  rw [Tables.execute, hDelete]
  rfl

theorem Ready.execute_deleteExpiredLock {s : Store} (h : s.Ready) (key : Key) (now : Millis) :
    ∃ found s', execute (.deleteExpiredLock key now) s = (.ok found, s') ∧ s'.Ready := by
  obtain ⟨found, locks, hDelete⟩ := h.deleteLockWhere key (·.isExpiredAt now)
  exact ⟨found, _, execute_eq_ok h.isOpen hDelete, h.with_locks locks⟩

/-- No statement closes a store, drops its table, or puts up a guard. -/
theorem Ready.after_execute {s : Store} (h : s.Ready) (st : Statement) : (execute st s).2.Ready := by
  obtain ⟨hClosed, hTables⟩ := execute_keeps st s
  refine ⟨hClosed.trans h.isOpen, ?_, fun kind => ?_⟩
  · rcases hTables.locks with hSame | ⟨-, hChange⟩
    · rw [hSame]
      exact h.hasLocks
    · exact isSome_of_change hChange
  · rw [Tables.forbids, hTables.guards]
    exact h.permits kind

/-! ## Calls -/

/-- A call of one statement succeeds if the statement does. -/
theorem run_statement {failed : Failed} {st : Statement} {s s' : Store} {result : st.Result}
    (h : execute st s = (.ok result, s')) :
    s.run (RecordCall.statement failed st).run = (.ok result, s') := by
  simp [Store.run, RecordCall.statement, Program.run, h]

theorem run_statement_error {failed : Failed} {st : Statement} {s s' : Store} {fault : Fault}
    (h : execute st s = (.error fault, s')) :
    s.run (RecordCall.statement failed st).run = (.error (.record failed fault.cause), s') := by
  simp [Store.run, RecordCall.statement, Program.run, h]

theorem Ready.perform_getLock {s : Store} (h : s.Ready) (key : Key) :
    s.perform (.getLock key) = (.ok (s.lock? key), s) :=
  run_statement (h.execute_selectLock key)

theorem Ready.perform_insertLock {s : Store} (h : s.Ready) {key : Key} (lock : Lock)
    (hNew : s.lock? key = none) :
    ∃ s', s.perform (.insertLock key lock) = (.ok (), s') ∧ s'.Ready ∧
      s'.lock? = Function.update s.lock? key (some lock) := by
  obtain ⟨s', hExecute, hReady⟩ := h.execute_insertLock lock hNew
  have hPerform : s.perform (.insertLock key lock) = (.ok (), s') := run_statement hExecute
  exact ⟨s', hPerform, hReady, (Store.perform_insertLock hPerform).2⟩

/-- A row that is there already is left alone, and the call fails. -/
theorem Ready.perform_insertLock_duplicate {s : Store} (h : s.Ready) {key : Key} (lock : Lock)
    (hOld : s.lock? key ≠ none) :
    s.perform (.insertLock key lock) =
      (.error (.record (.insertLock key lock) .uniqueViolation), s) :=
  run_statement_error (h.execute_insertLock_duplicate lock hOld)

/-- A row that is not there stays so. -/
theorem Ready.perform_updateLock_map {s : Store} (h : s.Ready) (key : Key) (lock : Lock) :
    ∃ s', s.perform (.updateLock key lock) = (.ok (), s') ∧ s'.Ready ∧
      s'.lock? = Function.update s.lock? key ((s.lock? key).map fun _ => lock) := by
  obtain ⟨s', hExecute, hReady⟩ := h.execute_updateLock key lock
  have hPerform : s.perform (.updateLock key lock) = (.ok (), s') := run_statement hExecute
  exact ⟨s', hPerform, hReady, Store.perform_updateLock hPerform⟩

theorem Ready.perform_updateLock {s : Store} (h : s.Ready) {key : Key} {old : Lock} (lock : Lock)
    (hOld : s.lock? key = some old) :
    ∃ s', s.perform (.updateLock key lock) = (.ok (), s') ∧ s'.Ready ∧
      s'.lock? = Function.update s.lock? key (some lock) := by
  have hMap := h.perform_updateLock_map key lock
  rwa [hOld, Option.map_some] at hMap

theorem Ready.perform_deleteLock {s : Store} (h : s.Ready) (key : Key) :
    ∃ s', s.perform (.deleteLock key) = (.ok (), s') ∧ s'.Ready ∧
      s'.lock? = Function.update s.lock? key none := by
  obtain ⟨s', hExecute, hReady⟩ := h.execute_deleteLock key
  have hPerform : s.perform (.deleteLock key) = (.ok (), s') := run_statement hExecute
  exact ⟨s', hPerform, hReady, Store.perform_deleteLock hPerform⟩

/-- The conditional removal of a row that has expired. -/
theorem Ready.perform_deleteExpiredLock {s : Store} (h : s.Ready) {key : Key} {now : Millis}
    {old : Lock} (hOld : s.lock? key = some old) (hExpired : old.isExpiredAt now = true) :
    ∃ s', s.perform (.deleteExpiredLock key now) = (.ok true, s') ∧ s'.Ready ∧
      s'.lock? = Function.update s.lock? key none := by
  obtain ⟨found, s', hExecute, hReady⟩ := h.execute_deleteExpiredLock key now
  have hPerform : s.perform (.deleteExpiredLock key now) = (.ok found, s') := run_statement hExecute
  -- the removal tells that it has found what it was to remove
  obtain ⟨hFound, hRows⟩ := Store.perform_deleteExpiredLock hPerform
  rw [hOld, Option.filter_some_neg (by simp [hExpired])] at hRows
  rw [hOld, Option.any_some, hExpired] at hFound
  exact ⟨s', hFound ▸ hPerform, hReady, hRows⟩

end Latch.Store
