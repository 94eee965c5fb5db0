import Latch.Store.Basic

/-!
# What a statement leaves alone

A statement writes to one table at most, there to the rows of one key at most, and to those only in
the ways that tables have. So whatever is said of the rows of a table needs to be proved for those
ways alone.

* `Part` — what belongs together in a store: the lock of a key, or the properties of a key;
* `Store.Statement.table?`, `Store.Statement.part?` — what a statement is about;
* `Store.Table.Change` — the ways in which the rows of a table can change;
* `Store.Tables.Executed` — what the tables have become after a statement.

Main results:

* `Store.Tables.executed` — a statement that succeeds changes rows of its own part only, in those
  ways;
* `Store.execute_keeps` — the same for an open or closed store, and whether the statement succeeds
  or not;
* `Store.execute_keeps_rows` — statements about tables and versions leave all rows alone.
-/

namespace Latch

/-- The lock of a key, or the properties of a key. -/
inductive Part where
  | lock (key : Key)
  | properties (key : Key)
deriving DecidableEq

end Latch

namespace Latch.Store

/-- The table that a statement is about. -/
def Statement.table? : Statement → Option TableName
  | .selectLock _ | .insertLock .. | .updateLock .. | .deleteLock _ | .deleteExpiredLock .. =>
    some .locks
  | .selectProperties _ | .selectProperty .. | .insertProperty .. | .updateProperty ..
  | .deleteProperty .. | .deleteProperties _ => some .properties
  | .createTable table | .createIndex table => some table
  | .selectVersion | .insertVersion _ | .deleteVersions => some .migrations
  | .ping => none

/-- The part whose rows a statement reads or writes. -/
def Statement.part? : Statement → Option Part
  | .selectLock key | .insertLock key _ | .updateLock key _ | .deleteLock key
  | .deleteExpiredLock key _ => some (.lock key)
  | .selectProperties key | .selectProperty key _ | .insertProperty key _ _ | .updateProperty key _ _
  | .deleteProperty key _ | .deleteProperties key => some (.properties key)
  | _ => none

/-- The ways in which the rows of a table can change, where only rows of some keys may be touched. A
table that is made has no rows at all. -/
inductive Table.Change {κ α : Type} [DecidableEq κ] (touched : κ → Prop) :
    Option (Table κ α) → Option (Table κ α) → Prop
  | create (hNone : ∀ k, ¬ touched k) : Change touched none (some .empty)
  | insert {t t' : Table κ α} {key : κ} {value : α} (hKey : touched key)
      (hInsert : t.insert? key value = some t') : Change touched (some t) (some t')
  | update {key : κ} (t : Table κ α) (value : α) (hKey : touched key) :
      Change touched (some t) (some (t.update key value))
  | delete {test : κ → α → Bool} (t : Table κ α) (hKeys : ∀ k v, test k v = true → touched k) :
      Change touched (some t) (some (t.deleteWhere test))

/-- What the tables have become after a statement. -/
structure Tables.Executed (st : Statement) (t t' : Tables) : Prop where
  guards : t'.guards = t.guards
  locks : t'.locks = t.locks ∨ st.table? = some .locks ∧
    Table.Change (fun k => st.part? = some (.lock k)) t.locks t'.locks
  properties : t'.properties = t.properties ∨ st.table? = some .properties ∧
    Table.Change (fun k => st.part? = some (.properties k.1)) t.properties t'.properties
  migrations : t'.migrations = t.migrations ∨ st.table? = some .migrations

namespace Tables

variable {t t' : Tables} {st : Statement} {key : Key} {u : Unit}

theorem Executed.refl (st : Statement) (t : Tables) : Executed st t t :=
  ⟨rfl, Or.inl rfl, Or.inl rfl, Or.inl rfl⟩

theorem Executed.of_locks {locks locks' : LockTable} (hTable : st.table? = some .locks)
    (h : t.locks = some locks)
    (hChange : Table.Change (fun k => st.part? = some (.lock k)) (some locks) (some locks')) :
    Executed st t { t with locks := some locks' } :=
  ⟨rfl, Or.inr ⟨hTable, h ▸ hChange⟩, Or.inl rfl, Or.inl rfl⟩

theorem Executed.of_properties {properties properties' : PropertyTable}
    (hTable : st.table? = some .properties) (h : t.properties = some properties)
    (hChange : Table.Change (fun k => st.part? = some (.properties k.1)) (some properties)
      (some properties')) :
    Executed st t { t with properties := some properties' } :=
  ⟨rfl, Or.inl rfl, Or.inr ⟨hTable, h ▸ hChange⟩, Or.inl rfl⟩

/-- Versions are no rows of a part. -/
theorem Executed.of_migrations {migrations : Option (List Int64)}
    (hTable : st.table? = some .migrations) : Executed st t { t with migrations } :=
  ⟨rfl, Or.inl rfl, Or.inl rfl, Or.inr hTable⟩

/-! ## Writes -/

theorem executed_insertLock {lock : Lock} (h : t.insertLock key lock = .ok (u, t')) :
    Executed (.insertLock key lock) t t' := by
  unfold insertLock at h
  split at h
  · cases h
  · rename_i locks hLocks
    split at h
    · cases h
    · split at h
      · cases h
      · rename_i locks' hInsert
        cases h
        exact .of_locks rfl hLocks (.insert rfl hInsert)

theorem executed_updateLock {lock : Lock} (h : t.updateLock key lock = .ok (u, t')) :
    Executed (.updateLock key lock) t t' := by
  unfold updateLock at h
  split at h
  · cases h
  · rename_i locks hLocks
    split at h
    · cases h
    · cases h
      exact .of_locks rfl hLocks (.update locks lock rfl)

theorem executed_deleteLockWhere {test : Lock → Bool} {found : Bool}
    (hTable : st.table? = some .locks) (hPart : st.part? = some (.lock key))
    (h : t.deleteLockWhere key test = .ok (found, t')) : Executed st t t' := by
  unfold deleteLockWhere at h
  split at h
  · cases h
  · rename_i locks hLocks
    dsimp only at h
    split at h
    · cases h
    · cases h
      refine .of_locks hTable hLocks (.delete locks fun k lock hTest => ?_)
      rw [Bool.and_eq_true, decide_eq_true_eq] at hTest
      rw [hTest.1, hPart]

theorem executed_insertProperty {name value : String}
    (h : t.insertProperty key name value = .ok (u, t')) :
    Executed (.insertProperty key name value) t t' := by
  unfold insertProperty at h
  split at h
  · cases h
  · rename_i properties hProperties
    split at h
    · cases h
    · split at h
      · cases h
      · rename_i properties' hInsert
        cases h
        exact .of_properties rfl hProperties (.insert rfl hInsert)

theorem executed_updateProperty {name value : String}
    (h : t.updateProperty key name value = .ok (u, t')) :
    Executed (.updateProperty key name value) t t' := by
  unfold updateProperty at h
  split at h
  · cases h
  · rename_i properties hProperties
    split at h
    · cases h
    · cases h
      exact .of_properties rfl hProperties (.update properties value rfl)

theorem executed_deletePropertiesWhere {test : String → Bool}
    (hTable : st.table? = some .properties) (hPart : st.part? = some (.properties key))
    (h : t.deletePropertiesWhere key test = .ok (u, t')) : Executed st t t' := by
  unfold deletePropertiesWhere at h
  split at h
  · cases h
  · rename_i properties hProperties
    dsimp only at h
    split at h
    · cases h
    · cases h
      refine .of_properties hTable hProperties (.delete properties fun k value hTest => ?_)
      rw [Bool.and_eq_true, decide_eq_true_eq] at hTest
      rw [hTest.1, hPart]

theorem executed_createTable (t : Tables) (table : TableName) :
    Executed (.createTable table) t (t.createTable table) := by
  cases table with
  | locks =>
    refine ⟨rfl, ?_, Or.inl rfl, Or.inl rfl⟩
    -- a table that is there is left as it is
    cases hLocks : t.locks with
    | none =>
      have hAfter : (t.createTable .locks).locks = some .empty := by simp [createTable, hLocks]
      rw [hAfter]
      exact Or.inr ⟨rfl, .create fun _ hPart => nomatch hPart⟩
    | some locks => exact Or.inl (by simp [createTable, hLocks])
  | properties =>
    refine ⟨rfl, Or.inl rfl, ?_, Or.inl rfl⟩
    cases hProperties : t.properties with
    | none =>
      have hAfter : (t.createTable .properties).properties = some .empty := by
        simp [createTable, hProperties]
      rw [hAfter]
      exact Or.inr ⟨rfl, .create fun _ hPart => nomatch hPart⟩
    | some properties => exact Or.inl (by simp [createTable, hProperties])
  | migrations => exact .of_migrations rfl

theorem executed_insertVersion {version : Int64} (h : t.insertVersion version = .ok (u, t')) :
    Executed (.insertVersion version) t t' := by
  unfold insertVersion at h
  split at h
  · cases h
  · split at h
    · cases h
    · split at h
      · cases h
      · cases h
        exact .of_migrations rfl

theorem executed_deleteVersions (h : t.deleteVersions = .ok (u, t')) :
    Executed .deleteVersions t t' := by
  unfold deleteVersions at h
  split at h
  · cases h
  · split at h
    · cases h
    · cases h
      exact .of_migrations rfl

/-! ## All statements -/

/-- **A statement that succeeds changes rows of its own part only**, and in the ways of tables. -/
theorem executed {st : Statement} {result : st.Result} (h : t.execute st = .ok (result, t')) :
    Executed st t t' := by
  cases st with
  | insertLock key lock => exact executed_insertLock h
  | updateLock key lock => exact executed_updateLock h
  | deleteExpiredLock key now => exact executed_deleteLockWhere rfl rfl h
  | deleteLock key =>
    simp only [execute] at h
    cases hDelete : t.deleteLockWhere key fun _ => true with
    | error fault => simp [hDelete, Except.map] at h
    | ok found =>
      simp only [hDelete, Except.map] at h
      cases h
      exact executed_deleteLockWhere rfl rfl hDelete
  | insertProperty key name value => exact executed_insertProperty h
  | updateProperty key name value => exact executed_updateProperty h
  | deleteProperty key name | deleteProperties key =>
    simp only [execute] at h
    exact executed_deletePropertiesWhere rfl rfl h
  | createTable table =>
    cases h
    exact executed_createTable t table
  | insertVersion version => exact executed_insertVersion h
  | deleteVersions => exact executed_deleteVersions h
  | selectVersion =>
    simp only [execute] at h
    cases hVersion : t.selectVersion with
    | error fault => simp [hVersion, Except.map] at h
    | ok version =>
      simp only [hVersion, Except.map] at h
      cases h
      exact .refl _ t
  | ping =>
    cases h
    exact .refl _ t
  | selectLock key | selectProperties key | selectProperty key name | createIndex table =>
    -- the other statements change nothing
    simp only [execute] at h
    split at h
    all_goals cases h
    all_goals exact .refl _ t

end Tables

/-- A store is open or closed as before, and its tables are what the statement has made of them. A
statement that fails has made nothing of them. -/
theorem execute_keeps (st : Statement) (s : Store) :
    (execute st s).2.closed = s.closed ∧ s.tables.Executed st (execute st s).2.tables := by
  unfold execute
  split
  · exact ⟨rfl, .refl _ _⟩
  · split
    · rename_i result tables hTables
      exact ⟨rfl, Tables.executed hTables⟩
    · exact ⟨rfl, .refl _ _⟩

theorem isSome_of_change {κ α : Type} [DecidableEq κ] {touched : κ → Prop} {t t' : Option (Table κ α)}
    (h : Table.Change touched t t') : t'.isSome = true := by
  cases h <;> rfl

/-- A table that is there does not change if none of its keys may be touched. -/
theorem eq_of_change {κ α : Type} [DecidableEq κ] {touched : κ → Prop} {t : Table κ α}
    {t' : Option (Table κ α)} (h : Table.Change touched (some t) t') (hNone : ∀ k, ¬ touched k) :
    t' = some t := by
  cases h with
  | insert hKey _ => exact absurd hKey (hNone _)
  | update _ _ hKey => exact absurd hKey (hNone _)
  | @delete test _ hKeys =>
    have hRows : t.rows.filter (fun row => !test row.key row.value) = t.rows := by
      rw [List.filter_eq_self]
      intro row _
      have hFails : ¬ test row.key row.value = true := fun hTest => hNone _ (hKeys _ _ hTest)
      simpa using hFails
    obtain ⟨rows, nextId, hNodup⟩ := t
    simp only [Table.deleteWhere, Option.some.injEq, Table.mk.injEq]
    exact ⟨hRows, trivial⟩

/-- A statement that is about no part leaves the rows of the tables that are there alone. -/
theorem execute_keeps_rows {st : Statement} (hPart : st.part? = none) (s : Store) :
    (∀ locks, s.tables.locks = some locks → (execute st s).2.tables.locks = some locks) ∧
      ∀ properties, s.tables.properties = some properties →
        (execute st s).2.tables.properties = some properties := by
  obtain ⟨-, hTables⟩ := execute_keeps st s
  have hNone : ∀ part, st.part? ≠ some part := by simp [hPart]
  refine ⟨fun locks hLocks => ?_, fun properties hProperties => ?_⟩
  · rcases hTables.locks with hSame | ⟨-, hChange⟩
    · rw [hSame, hLocks]
    · rw [hLocks] at hChange
      exact eq_of_change hChange fun _ => hNone _
  · rcases hTables.properties with hSame | ⟨-, hChange⟩
    · rw [hSame, hProperties]
    · rw [hProperties] at hChange
      exact eq_of_change hChange fun _ => hNone _

end Latch.Store
