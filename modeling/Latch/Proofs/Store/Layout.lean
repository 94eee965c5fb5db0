import Latch.Proofs.Store.Frame
import Latch.Proofs.Store.LockRows

/-!
# The layout of a store

Which tables a store has, and which versions are recorded for them. A store is consistent if its
versions came one after the other and each came after its table. The tables alone do not say which
versions are recorded: a migration that is cut off leaves a table whose version is missing.

* `Store.recorded` — the recorded versions, in the order in which they came;
* `Store.Consistent` — the versions came in order, and have their tables; nothing forbids others to
  come;
* `Store.Grown` — nothing of the layout has been lost.

Main results:

* `Store.Consistent.execute_createTable` … `Store.Consistent.execute_insertVersion` — the statements
  of a migration on a consistent store;
* `Store.Consistent.insertVersion` — which versions can come next;
* `Store.Consistent.after_rows` — statements about rows keep a store consistent.
-/

namespace Latch.Store

/-- The recorded versions, in the order in which they came. -/
def recorded (s : Store) : List Int64 := s.tables.migrations.getD []

/-- The versions of an open store came in order, and each has its table. Nothing forbids others to
come. -/
structure Consistent (s : Store) : Prop where
  isOpen : s.closed = false
  guards : s.tables.guards = []
  versions : s.recorded = [] ∨ s.recorded = [1] ∨ s.recorded = [1, 2]
  locks : 1 ∈ s.recorded → s.tables.hasTable .locks = true
  properties : 2 ∈ s.recorded → s.tables.hasTable .properties = true

/-- Nothing of the layout has been lost. -/
structure Grown (s s' : Store) : Prop where
  tables : ∀ table, s.tables.hasTable table = true → s'.tables.hasTable table = true
  recorded : ∀ v ∈ s.recorded, v ∈ s'.recorded

theorem Grown.refl (s : Store) : Grown s s := ⟨fun _ h => h, fun _ h => h⟩

/-! ## Making tables -/

theorem hasTable_createTable (t : Tables) (table : TableName) :
    (t.createTable table).hasTable table = true := by
  cases table <;> rfl

theorem hasTable_createTable_mono {t : Tables} (made : TableName) {table : TableName}
    (h : t.hasTable table = true) : (t.createTable made).hasTable table = true := by
  cases made <;> cases table <;> first | exact h | rfl

theorem createTable_of_hasTable {t : Tables} {table : TableName} (h : t.hasTable table = true) :
    t.createTable table = t := by
  obtain ⟨locks, properties, migrations, guards⟩ := t
  cases table
  · obtain ⟨rows, rfl⟩ := Option.isSome_iff_exists.mp h
    rfl
  · obtain ⟨rows, rfl⟩ := Option.isSome_iff_exists.mp h
    rfl
  · obtain ⟨versions, rfl⟩ := Option.isSome_iff_exists.mp h
    rfl

/-- A table of versions that is made holds none. -/
theorem recorded_createTable (s : Store) (table : TableName) :
    ({ s with tables := s.tables.createTable table } : Store).recorded = s.recorded := by
  cases table <;> rfl

theorem grown_createTable (s : Store) (table : TableName) :
    Grown s { s with tables := s.tables.createTable table } :=
  ⟨fun _ h => hasTable_createTable_mono table h, fun v h => by rwa [recorded_createTable]⟩

namespace Consistent

variable {s : Store} {version : Int64}

theorem empty : Consistent ⟨.empty, false⟩ := ⟨rfl, rfl, Or.inl rfl, nofun, nofun⟩

/-- The second version comes after the first. -/
theorem one_of_two (h : s.Consistent) (hTwo : 2 ∈ s.recorded) : 1 ∈ s.recorded := by
  rcases h.versions with hNone | hOne | hBoth
  · simp [hNone] at hTwo
  · simp [hOne]
  · simp [hBoth]

theorem nodup (h : s.Consistent) : s.recorded.Nodup := by
  rcases h.versions with hSame | hSame | hSame <;> rw [hSame] <;> decide

theorem mem_cases (h : s.Consistent) (hMem : version ∈ s.recorded) : version = 1 ∨ version = 2 := by
  rcases h.versions with hSame | hSame | hSame
  · simp [hSame] at hMem
  · simp [hSame] at hMem
    exact Or.inl hMem
  · simpa [hSame] using hMem

theorem forbids_eq (h : s.Consistent) (table : TableName) (kind : WriteKind) (name? : Option String) :
    s.tables.forbids table kind name? = false := by
  rw [Tables.forbids, h.guards, List.any_nil]

theorem createTable (h : s.Consistent) (table : TableName) :
    Consistent { s with tables := s.tables.createTable table } := by
  have hGuards : (s.tables.createTable table).guards = s.tables.guards := by cases table <;> rfl
  -- a new table brings no version with it
  have hRecorded := recorded_createTable s table
  refine ⟨h.isOpen, hGuards.trans h.guards, ?_, fun hOne => ?_, fun hTwo => ?_⟩
  · rw [hRecorded]
    exact h.versions
  · rw [hRecorded] at hOne
    exact hasTable_createTable_mono table (h.locks hOne)
  · rw [hRecorded] at hTwo
    exact hasTable_createTable_mono table (h.properties hTwo)

/-! ## The statements of a migration -/

theorem execute_createTable (h : s.Consistent) (table : TableName) :
    execute (.createTable table) s = (.ok (), { s with tables := s.tables.createTable table }) :=
  execute_eq_ok h.isOpen rfl

theorem execute_createIndex (h : s.Consistent) {table : TableName}
    (hTable : s.tables.hasTable table = true) : execute (.createIndex table) s = (.ok (), s) :=
  execute_eq_ok h.isOpen (if_pos hTable)

theorem exists_migrations (hTable : s.tables.hasTable .migrations = true) :
    s.tables.migrations = some s.recorded := by
  obtain ⟨versions, hVersions⟩ := Option.isSome_iff_exists.mp hTable
  rw [recorded, hVersions, Option.getD_some]

/-- The highest version is the last one. -/
theorem execute_selectVersion (h : s.Consistent) (hTable : s.tables.hasTable .migrations = true) :
    ∃ version?, execute .selectVersion s = (.ok version?, s) ∧
      ((s.recorded = [] ∧ version? = none) ∨ (s.recorded = [1] ∧ version? = some 1) ∨
        s.recorded = [1, 2] ∧ version? = some 2) := by
  have hMigrations := exists_migrations hTable
  -- the versions came in order, so there are three lists to read
  rcases h.versions with hSame | hSame | hSame <;> rw [hSame] at hMigrations
  · refine ⟨none, execute_eq_ok h.isOpen ?_, Or.inl ⟨hSame, rfl⟩⟩
    simp [Tables.execute, Tables.selectVersion, hMigrations, Except.map]
  · refine ⟨some 1, execute_eq_ok h.isOpen ?_, Or.inr (Or.inl ⟨hSame, rfl⟩)⟩
    simp only [Tables.execute, Tables.selectVersion, hMigrations]
    rfl
  · refine ⟨some 2, execute_eq_ok h.isOpen ?_, Or.inr (Or.inr ⟨hSame, rfl⟩)⟩
    simp only [Tables.execute, Tables.selectVersion, hMigrations]
    rfl

/-- A version that is recorded already is refused. -/
theorem execute_insertVersion_duplicate (h : s.Consistent)
    (hTable : s.tables.hasTable .migrations = true) (hOld : version ∈ s.recorded) :
    execute (.insertVersion version) s = (.error .duplicate, s) := by
  refine execute_eq_error h.isOpen ?_
  simp [Tables.execute, Tables.insertVersion, exists_migrations hTable, h.forbids_eq, hOld]

theorem execute_insertVersion (h : s.Consistent) (hTable : s.tables.hasTable .migrations = true)
    (hNew : version ∉ s.recorded) :
    execute (.insertVersion version) s =
      (.ok (), { s with tables := { s.tables with migrations := some (s.recorded ++ [version]) } }) := by
  refine execute_eq_ok h.isOpen ?_
  simp [Tables.execute, Tables.insertVersion, exists_migrations hTable, h.forbids_eq, hNew]

/-- A version can come as soon as its table and the version before it are there. -/
theorem insertVersion (h : s.Consistent) (hNew : version ∉ s.recorded)
    (hNext : (version = 1 ∧ s.tables.hasTable .locks = true) ∨
      (version = 2 ∧ 1 ∈ s.recorded ∧ s.tables.hasTable .properties = true)) :
    Consistent
      { s with tables := { s.tables with migrations := some (s.recorded ++ [version]) } } := by
  refine ⟨h.isOpen, h.guards, ?_, ?_, ?_⟩
  · show s.recorded ++ [version] = [] ∨ s.recorded ++ [version] = [1] ∨ s.recorded ++ [version] = [1, 2]
    rcases hNext with ⟨rfl, -⟩ | ⟨rfl, hOne, -⟩
    · -- the first version is missing, so none has come
      rcases h.versions with hSame | hSame | hSame <;> simp_all
    · rcases h.versions with hSame | hSame | hSame <;> simp_all
  · intro hOne
    rcases hNext with ⟨-, hTable⟩ | ⟨-, hOld, -⟩
    · exact hTable
    · exact h.locks hOld
  · intro hTwo
    have hMem : 2 ∈ s.recorded ++ [version] := hTwo
    rcases List.mem_append.mp hMem with hOld | hLast
    · exact h.properties hOld
    · rcases hNext with ⟨rfl, -⟩ | ⟨-, -, hTable⟩
      · exact absurd (List.mem_singleton.mp hLast) (by decide)
      · exact hTable

/-! ## Statements about rows -/

/-- Statements about rows keep a store consistent. -/
theorem after_rows (h : s.Consistent) {st : Statement} {part : Part} (hPart : st.part? = some part) :
    (execute st s).2.Consistent := by
  obtain ⟨hClosed, hTables⟩ := execute_keeps st s
  -- versions are not rows of a part
  have hRecorded : (execute st s).2.recorded = s.recorded := by
    rcases hTables.migrations with hSame | hTable
    · rw [recorded, hSame, recorded]
    · cases st <;> simp_all [Statement.table?, Statement.part?]
  refine ⟨hClosed.trans h.isOpen, hTables.guards.trans h.guards, ?_, fun hOne => ?_, fun hTwo => ?_⟩
  · rw [hRecorded]
    exact h.versions
  · rw [hRecorded] at hOne
    rcases hTables.locks with hSame | ⟨-, hChange⟩
    · show (execute st s).2.tables.locks.isSome = true
      rw [hSame]
      exact h.locks hOne
    · exact isSome_of_change hChange
  · rw [hRecorded] at hTwo
    rcases hTables.properties with hSame | ⟨-, hChange⟩
    · show (execute st s).2.tables.properties.isSome = true
      rw [hSame]
      exact h.properties hTwo
    · exact isSome_of_change hChange

end Consistent

end Latch.Store
