import Latch.Proofs.Run.Trace
import Latch.Proofs.Store.Frame
import Latch.Records
import Mathlib.Logic.Function.Basic

/-!
# The lock rows of a store

What statements and record calls do to the stored locks, seen as a map from keys.

* `Store.lock?` — the stored lock of a key;
* `RecordCall.Partly` — a record call has carried out some of its statements, all or none included;
* `RecordCall.LockChange` — everything that a record call can do to the lock rows.

Main results:

* `RecordCall.Partly.lockChange` — a call changes the rows in those ways only, however far it came;
* `Store.perform_getLock` … `Store.perform_deleteExpiredLock` — what a call that succeeds has done.
-/

namespace Latch

open Program (Trace Asks)

namespace Store

/-- The stored lock of a key, if there is one. -/
def lock? (s : Store) (key : Key) : Option Lock := s.tables.locks.bind (·.get? key)

/-! ## Statements -/

theorem execute_of_error {st : Statement} {s s' : Store} {fault : Fault}
    (h : execute st s = (.error fault, s')) : s' = s := by
  unfold execute at h
  split at h
  · cases h; rfl
  · split at h
    · cases h
    · cases h; rfl

theorem execute_of_ok {st : Statement} {s s' : Store} {result : st.Result}
    (h : execute st s = (.ok result, s')) :
    s.closed = false ∧
      ∃ t, s.tables.execute st = .ok (result, t) ∧ s' = { s with tables := t } := by
  unfold execute at h
  split at h
  · cases h
  · rename_i hOpen
    split at h
    · rename_i result' t hTables
      cases h
      exact ⟨by simpa using hOpen, t, hTables, rfl⟩
    · cases h

/-- On an open store a statement does what it does to the tables. -/
theorem execute_eq_ok {s : Store} {st : Statement} {result : st.Result} {t : Tables}
    (hOpen : s.closed = false) (hTables : s.tables.execute st = .ok (result, t)) :
    execute st s = (.ok result, { s with tables := t }) := by
  simp [execute, hOpen, hTables]

/-- A statement that fails on the tables changes nothing. -/
theorem execute_eq_error {s : Store} {st : Statement} {fault : Fault}
    (hOpen : s.closed = false) (hTables : s.tables.execute st = .error fault) :
    execute st s = (.error fault, s) := by
  simp [execute, hOpen, hTables]

theorem execute_selectLock {s s' : Store} {key : Key} {row : Option Lock}
    (h : execute (.selectLock key) s = (.ok row, s')) : row = s.lock? key ∧ s' = s := by
  obtain ⟨-, t, hTables, rfl⟩ := execute_of_ok h
  simp only [Tables.execute] at hTables
  split at hTables
  · cases hTables
  · rename_i locks hLocks
    cases hTables
    exact ⟨by simp [lock?, hLocks], rfl⟩

theorem execute_insertLock {s s' : Store} {key : Key} {lock : Lock} {u : Unit}
    (h : execute (.insertLock key lock) s = (.ok u, s')) :
    s.lock? key = none ∧ s'.lock? = Function.update s.lock? key (some lock) := by
  obtain ⟨-, t, hTables, rfl⟩ := execute_of_ok h
  simp only [Tables.execute, Tables.insertLock] at hTables
  split at hTables
  · cases hTables
  · rename_i locks hLocks
    split at hTables
    · cases hTables
    · split at hTables
      · cases hTables
      · rename_i locks' hInsert
        cases hTables
        -- the table would have refused a key that is there
        have hNew : locks.get? key = none := by
          rw [← Option.not_isSome_iff_eq_none, ← Table.insert?_eq_none_iff, hInsert]
          simp
        refine ⟨by simp [lock?, hLocks, hNew], funext fun k => ?_⟩
        simp [lock?, hLocks, Table.get?_insert? hInsert, Function.update_apply]

theorem execute_updateLock {s s' : Store} {key : Key} {lock : Lock} {u : Unit}
    (h : execute (.updateLock key lock) s = (.ok u, s')) :
    s'.lock? = Function.update s.lock? key ((s.lock? key).map fun _ => lock) := by
  obtain ⟨-, t, hTables, rfl⟩ := execute_of_ok h
  simp only [Tables.execute, Tables.updateLock] at hTables
  split at hTables
  · cases hTables
  · rename_i locks hLocks
    split at hTables
    · cases hTables
    · cases hTables
      funext k
      by_cases hk : k = key <;> simp [lock?, hLocks, Table.get?_update, hk]

/-- A conditional removal tells whether there was a row that passes the test, and removes it. -/
theorem deleteLockWhere_ok {t t' : Tables} {key : Key} {test : Lock → Bool} {found : Bool}
    (h : t.deleteLockWhere key test = .ok (found, t')) :
    ∃ locks locks', t.locks = some locks ∧ t'.locks = some locks' ∧
      found = (locks.get? key).any test ∧
      ∀ k, locks'.get? k = if k = key then (locks.get? k).filter fun v => !test v
        else locks.get? k := by
  simp only [Tables.deleteLockWhere] at h
  split at h
  · cases h
  · rename_i locks hLocks
    split at h
    · cases h
    · cases h
      refine ⟨locks, _, hLocks, rfl, Table.anyWhere_key .., fun k => ?_⟩
      by_cases hk : k = key
      · simp [Table.get?_deleteWhere, hk]
      · simp only [Table.get?_deleteWhere, hk, decide_false, Bool.false_and, Bool.not_false,
          if_false]
        cases locks.get? k <;> rfl

theorem execute_deleteLock {s s' : Store} {key : Key} {u : Unit}
    (h : execute (.deleteLock key) s = (.ok u, s')) :
    s'.lock? = Function.update s.lock? key none := by
  obtain ⟨-, t, hTables, rfl⟩ := execute_of_ok h
  simp only [Tables.execute] at hTables
  cases hDelete : s.tables.deleteLockWhere key fun _ => true with
  | error fault => simp [hDelete, Except.map] at hTables
  | ok result =>
    obtain ⟨found, t'⟩ := result
    simp only [hDelete, Except.map, Except.ok.injEq] at hTables
    cases hTables
    obtain ⟨locks, locks', hLocks, hLocks', -, hGet⟩ := deleteLockWhere_ok hDelete
    funext k
    by_cases hk : k = key <;> simp [lock?, hLocks, hLocks', hGet, hk]

theorem execute_deleteExpiredLock {s s' : Store} {key : Key} {now : Millis} {removed : Bool}
    (h : execute (.deleteExpiredLock key now) s = (.ok removed, s')) :
    removed = (s.lock? key).any (·.isExpiredAt now) ∧
      s'.lock? =
        Function.update s.lock? key ((s.lock? key).filter fun row => !row.isExpiredAt now) := by
  obtain ⟨-, t, hTables, rfl⟩ := execute_of_ok h
  obtain ⟨locks, locks', hLocks, hLocks', hFound, hGet⟩ := deleteLockWhere_ok hTables
  refine ⟨by simpa [lock?, hLocks] using hFound, funext fun k => ?_⟩
  by_cases hk : k = key <;> simp [lock?, hLocks, hLocks', hGet, hk]

/-! ## Statements about properties -/

/-- Whether a statement reads or writes the table of properties alone. -/
def Statement.isAboutProperties : Statement → Bool
  | .selectProperties _ | .selectProperty .. | .insertProperty .. | .updateProperty ..
  | .deleteProperty .. | .deleteProperties _ => true
  | _ => false

theorem Statement.table?_of_isAboutProperties {st : Statement} (h : st.isAboutProperties = true) :
    st.table? = some .properties := by
  cases st <;> first | rfl | cases h

/-- A statement about properties leaves every lock row alone, whether it succeeds or not. -/
theorem lock?_execute {s : Store} {st : Statement} (hAbout : st.isAboutProperties = true) :
    (execute st s).2.lock? = s.lock? := by
  have hTable := Statement.table?_of_isAboutProperties hAbout
  obtain ⟨-, hTables⟩ := execute_keeps st s
  rcases hTables.locks with hSame | ⟨hLocks, -⟩
  · funext key
    rw [lock?, hSame, lock?]
  · rw [hTable] at hLocks
    cases hLocks

end Store

/-! ## Record calls -/

namespace RecordCall

/-- How the store answers the statements of a script. -/
def Executes : Answering Store.Statement.Reply Store :=
  fun st s reply s' => Store.execute st s = (reply, s')

/-- A call has carried out its statements up to some point. -/
def Partly (call : RecordCall) (s s' : Store) : Prop :=
  ∃ es p, Trace Executes (· = ·) () call.script.run s es p s'

/-- A script that is carried out without interruption is carried out to its end. -/
theorem trace_run {α : Type} (p : Program Store.Statement.Reply α) (s : Store) :
    ∃ es, Trace Executes (· = ·) () p s es (.done (s.run p).1) (s.run p).2 := by
  induction p generalizing s with
  | done a => exact ⟨[], .stop rfl⟩
  | ask st next ih =>
    obtain ⟨es, hRest⟩ := ih (Store.execute st s).1 (Store.execute st s).2
    exact ⟨_, .turn rfl rfl hRest⟩

theorem partly_perform (call : RecordCall) (s : Store) : call.Partly s (s.perform call).2 := by
  obtain ⟨es, hTrace⟩ := trace_run call.script.run s
  exact ⟨es, _, hTrace⟩

theorem Partly.of_perform {call : RecordCall} {s s' : Store} {reply : call.Reply}
    (h : s.perform call = (reply, s')) : call.Partly s s' := by
  have hPartly := partly_perform call s
  rwa [h] at hPartly

/-! ## Calls of one statement -/

/-- A script of one statement has carried out nothing or the statement. -/
theorem trace_statement {failed : Failed} {st : Store.Statement} {s s' : Store}
    {es : List (Event Unit Store.Statement.Reply Store)} {p : Program Store.Statement.Reply _}
    (h : Trace Executes (· = ·) () (statement failed st).run s es p s') :
    s' = s ∨ ∃ reply, Store.execute st s = (reply, s') := by
  rcases h.ask_cases with ⟨-, -, hDrift⟩ | ⟨s₁, reply, s₂, rest, -, rfl, hAnswer, hRest⟩
  · exact Or.inl hDrift.symm
  · cases reply with
    | ok result =>
      obtain ⟨-, -, rfl⟩ := hRest.done_inv
      exact Or.inr ⟨_, hAnswer⟩
    | error fault =>
      obtain ⟨-, -, rfl⟩ := hRest.done_inv
      exact Or.inr ⟨_, hAnswer⟩

theorem run_statement_of_ok {failed : Failed} {st : Store.Statement} {s s' : Store}
    {result : st.Result} (h : s.run (statement failed st).run = (.ok result, s')) :
    Store.execute st s = (.ok result, s') := by
  simp only [Store.run, statement, ExceptT.run_mk, Program.run] at h
  cases hExecute : Store.execute st s with
  | mk reply s₁ =>
    rw [hExecute] at h
    cases reply with
    | ok result' => simpa [Program.run] using h
    | error fault => simp [Program.run] at h

/-! ## Calls about properties -/

/-- Whether a call is about the lock of a key and not about its properties. -/
def isAboutLock : RecordCall → Bool
  | getLock _ | insertLock .. | updateLock .. | deleteLock _ | deleteExpiredLock .. => true
  | _ => false

theorem asks_statement {P : Store.Statement → Prop} {failed : Failed} {st : Store.Statement}
    (h : P st) : (statement failed st).run.Asks P :=
  ⟨h, fun reply => by cases reply <;> trivial⟩

theorem asks_addAll {P : Store.Statement → Prop} {key : Key}
    (hP : ∀ name value, P (.insertProperty key name value)) (entries : List (String × String)) :
    (addAll key entries).run.Asks P := by
  induction entries with
  | nil => trivial
  | cons entry rest ih => exact Asks.attempt_bind (asks_statement (hP _ _)) fun _ => ih

theorem asks_updateAll {P : Store.Statement → Prop} {key : Key}
    (hP : ∀ name value, P (.updateProperty key name value)) (entries : List (String × String)) :
    (updateAll key entries).run.Asks P := by
  induction entries with
  | nil => trivial
  | cons entry rest ih => exact Asks.attempt_bind (asks_statement (hP _ _)) fun _ => ih

theorem asks_deleteAll {P : Store.Statement → Prop} {key : Key}
    (hP : ∀ name, P (.deleteProperty key name)) (names : List String) :
    (deleteAll key names).run.Asks P := by
  induction names with
  | nil => trivial
  | cons name rest ih => exact Asks.attempt_bind (asks_statement (hP _)) fun _ => ih

theorem asks_script {call : RecordCall} (h : call.isAboutLock = false) :
    call.script.run.Asks (·.isAboutProperties = true) := by
  cases call with
  | getProperties key => exact Asks.attempt_bind (asks_statement rfl) fun _ => trivial
  | getProperty key name => exact asks_statement rfl
  | addProperties key properties => exact asks_addAll (fun _ _ => rfl) _
  | updateProperties key properties => exact asks_updateAll (fun _ _ => rfl) _
  | deleteProperties key names => exact asks_deleteAll (fun _ => rfl) _
  | deleteAllProperties key => exact asks_statement rfl
  | _ => simp [isAboutLock] at h

/-- A call about properties leaves every lock row alone, however far it comes. -/
theorem Partly.lock?_eq {call : RecordCall} {s s' : Store} (h : call.isAboutLock = false)
    (hPartly : call.Partly s s') : s'.lock? = s.lock? := by
  obtain ⟨es, p, hTrace⟩ := hPartly
  -- each statement so far has left the rows as they were when the call began
  refine (hTrace.keeps (I := fun x => x.lock? = s.lock?) (fun _ _ hEq hx => hEq ▸ hx) ?_ rfl).2
  intro e he hBefore
  have hExecute : Store.execute e.question e.before = (e.reply, e.after) := hTrace.answered e he
  have hAfter := Store.lock?_execute (s := e.before) (hTrace.asked (asks_script h) e he)
  rw [hExecute] at hAfter
  exact hAfter.trans hBefore

/-! ## Everything that a call can do to the lock rows -/

inductive LockChange : RecordCall → (Key → Option Lock) → (Key → Option Lock) → Prop
  | nothing (call : RecordCall) (rows : Key → Option Lock) : LockChange call rows rows
  | insert {rows : Key → Option Lock} {key : Key} (lock : Lock) (hNew : rows key = none) :
      LockChange (.insertLock key lock) rows (Function.update rows key (some lock))
  | update {rows : Key → Option Lock} {key : Key} {old : Lock} (lock : Lock)
      (hOld : rows key = some old) :
      LockChange (.updateLock key lock) rows (Function.update rows key (some lock))
  | delete (rows : Key → Option Lock) (key : Key) :
      LockChange (.deleteLock key) rows (Function.update rows key none)
  | purge {rows : Key → Option Lock} {key : Key} {old : Lock} {now : Millis}
      (hOld : rows key = some old) (hExpired : old.isExpiredAt now = true) :
      LockChange (.deleteExpiredLock key now) rows (Function.update rows key none)

theorem LockChange.of_getLock {rows rows' : Key → Option Lock} {key : Key}
    (h : LockChange (.getLock key) rows rows') : rows' = rows := by
  cases h
  rfl

theorem LockChange.of_updateLock {rows rows' : Key → Option Lock} {key : Key} {lock : Lock}
    (h : LockChange (.updateLock key lock) rows rows') :
    rows' = rows ∨ ∃ old, rows key = some old ∧ rows' = Function.update rows key (some lock) := by
  cases h with
  | nothing => exact Or.inl rfl
  | update _ hOld => exact Or.inr ⟨_, hOld, rfl⟩

theorem LockChange.of_deleteExpiredLock {rows rows' : Key → Option Lock} {key : Key} {now : Millis}
    (h : LockChange (.deleteExpiredLock key now) rows rows') :
    rows' = rows ∨ ∃ old, rows key = some old ∧ old.isExpiredAt now = true ∧
      rows' = Function.update rows key none := by
  cases h with
  | nothing => exact Or.inl rfl
  | purge hOld hExpired => exact Or.inr ⟨_, hOld, hExpired, rfl⟩

/-- A call changes the row of its own key only. -/
theorem LockChange.of_ne {call : RecordCall} {rows rows' : Key → Option Lock} {k : Key}
    (h : LockChange call rows rows') (hk : k ≠ call.key) : rows' k = rows k := by
  cases h with
  | nothing => rfl
  | insert lock _ => exact Function.update_of_ne hk _ _
  | update lock _ => exact Function.update_of_ne hk _ _
  | delete => exact Function.update_of_ne hk _ _
  | purge _ _ => exact Function.update_of_ne hk _ _

/-! What the statements about a lock do to the rows when they succeed. -/

theorem lockChange_update {rows rows' : Key → Option Lock} {key : Key} {lock : Lock}
    (h : rows' = Function.update rows key ((rows key).map fun _ => lock)) :
    LockChange (.updateLock key lock) rows rows' := by
  cases hOld : rows key with
  | none =>
    rw [hOld, Option.map_none, ← hOld, Function.update_eq_self] at h
    exact h ▸ .nothing _ _
  | some old =>
    rw [hOld, Option.map_some] at h
    exact h ▸ .update lock hOld

theorem lockChange_purge {rows rows' : Key → Option Lock} {key : Key} {now : Millis}
    (h : rows' = Function.update rows key ((rows key).filter fun row => !row.isExpiredAt now)) :
    LockChange (.deleteExpiredLock key now) rows rows' := by
  cases hOld : rows key with
  | none =>
    rw [hOld, Option.filter_none, ← hOld, Function.update_eq_self] at h
    exact h ▸ .nothing _ _
  | some old =>
    -- the condition is tested on the row as it is then
    by_cases hExpired : old.isExpiredAt now = true
    · rw [hOld, Option.filter_some_neg (by simp [hExpired])] at h
      exact h ▸ .purge hOld hExpired
    · rw [hOld, Option.filter_some_pos (by simpa using hExpired), ← hOld,
        Function.update_eq_self] at h
      exact h ▸ .nothing _ _

/-- A call of one statement changes the rows only if the statement succeeds. -/
theorem lockChange_of_statement {call : RecordCall} {failed : Failed} {st : Store.Statement}
    {s s' : Store} {es : List (Event Unit Store.Statement.Reply Store)}
    {p : Program Store.Statement.Reply _}
    (hTrace : Trace Executes (· = ·) () (statement failed st).run s es p s')
    (hOk : ∀ result, Store.execute st s = (.ok result, s') → LockChange call s.lock? s'.lock?) :
    LockChange call s.lock? s'.lock? := by
  rcases trace_statement hTrace with rfl | ⟨reply, hExecute⟩
  · exact .nothing _ _
  · cases reply with
    | error fault => exact Store.execute_of_error hExecute ▸ .nothing _ _
    | ok result => exact hOk result hExecute

/-- **A call changes the lock rows in the ways of `LockChange` only**, however far it came. -/
theorem Partly.lockChange {call : RecordCall} {s s' : Store} (h : call.Partly s s') :
    LockChange call s.lock? s'.lock? := by
  by_cases hAbout : call.isAboutLock = false
  · -- a call about properties is many statements, none of which touches a lock
    rw [h.lock?_eq hAbout]
    exact .nothing _ _
  · -- a call about a lock is one statement
    obtain ⟨es, p, hTrace⟩ := h
    cases call with
    | getLock key =>
      refine lockChange_of_statement hTrace fun row hExecute => ?_
      exact (Store.execute_selectLock hExecute).2 ▸ .nothing _ _
    | insertLock key lock =>
      refine lockChange_of_statement hTrace fun _ hExecute => ?_
      obtain ⟨hNew, hRows⟩ := Store.execute_insertLock hExecute
      exact hRows ▸ .insert lock hNew
    | updateLock key lock =>
      refine lockChange_of_statement hTrace fun _ hExecute => ?_
      exact lockChange_update (Store.execute_updateLock hExecute)
    | deleteLock key =>
      refine lockChange_of_statement hTrace fun _ hExecute => ?_
      exact Store.execute_deleteLock hExecute ▸ .delete _ _
    | deleteExpiredLock key now =>
      refine lockChange_of_statement hTrace fun removed hExecute => ?_
      exact lockChange_purge (Store.execute_deleteExpiredLock hExecute).2
    | _ => simp [isAboutLock] at hAbout

end RecordCall

/-! ## What a call that succeeds has done -/

namespace Store

open RecordCall (run_statement_of_ok)

theorem perform_getLock {s s' : Store} {key : Key} {row : Option Lock}
    (h : s.perform (.getLock key) = (.ok row, s')) : row = s.lock? key ∧ s' = s :=
  execute_selectLock (run_statement_of_ok h)

theorem perform_insertLock {s s' : Store} {key : Key} {lock : Lock} {u : Unit}
    (h : s.perform (.insertLock key lock) = (.ok u, s')) :
    s.lock? key = none ∧ s'.lock? = Function.update s.lock? key (some lock) :=
  execute_insertLock (run_statement_of_ok h)

theorem perform_updateLock {s s' : Store} {key : Key} {lock : Lock} {u : Unit}
    (h : s.perform (.updateLock key lock) = (.ok u, s')) :
    s'.lock? = Function.update s.lock? key ((s.lock? key).map fun _ => lock) :=
  execute_updateLock (run_statement_of_ok h)

theorem perform_deleteLock {s s' : Store} {key : Key} {u : Unit}
    (h : s.perform (.deleteLock key) = (.ok u, s')) :
    s'.lock? = Function.update s.lock? key none :=
  execute_deleteLock (run_statement_of_ok h)

theorem perform_deleteExpiredLock {s s' : Store} {key : Key} {now : Millis} {removed : Bool}
    (h : s.perform (.deleteExpiredLock key now) = (.ok removed, s')) :
    removed = (s.lock? key).any (·.isExpiredAt now) ∧
      s'.lock? =
        Function.update s.lock? key ((s.lock? key).filter fun row => !row.isExpiredAt now) :=
  execute_deleteExpiredLock (run_statement_of_ok h)

/-! ## Stores to start from -/

/-- A new store with the current layout. -/
def migrated : Store := (run ⟨.empty, false⟩ Migration.runAll.run).2

/-- A new store that holds one lock. -/
def holding (key : Key) (lock : Lock) : Store := (migrated.perform (.insertLock key lock)).2

end Store

end Latch
