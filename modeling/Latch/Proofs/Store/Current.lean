import Latch.Proofs.Manager.Answers
import Latch.Proofs.Store.Migrations
import Latch.Proofs.Store.Parts

/-!
# Stores of the newest version

A program that opens a store migrates it first, whatever it is to do with it. On a store that is of the
newest version already this does nothing, and every store is that has been migrated once: whoever uses it
then, its locks and properties may change and its versions do not. So a store can be opened again and
again. What is opened may be of any version, and its rows stay what they are.

* `Store.Current` — an open store whose highest version is not below the newest one;
* `Store.Tables.rows` — the rows of locks and properties, with their identifiers.

Main results:

* `Store.Current.run_runAll` — a migration leaves a current store as it is;
* `Store.Current.of_run` — every migration that succeeds leads to one;
* `Store.Current.after_action` — whatever is asked of a manager, its store stays current;
* `Store.rows_runAll` — no migration touches a row, whether it succeeds or not.
-/

namespace Latch.Store

open Program (Asks)

/-- An open store whose highest version is not below the newest one. -/
structure Current (s : Store) : Prop where
  isOpen : s.closed = false
  version : ∃ version, s.tables.selectVersion = .ok (some version) ∧ ¬ version < Migration.target

/-! ## The highest version -/

namespace Tables

variable {t t' : Tables} {version? : Option Int32}

theorem hasTable_of_selectVersion (h : t.selectVersion = .ok version?) :
    t.hasTable .migrations = true := by
  unfold selectVersion at h
  split at h
  · cases h
  · rename_i hVersions
    rw [hasTable, hVersions]
    rfl
  · rename_i hVersions
    rw [hasTable, hVersions]
    rfl

/-- The highest version depends on the table of versions alone. -/
theorem selectVersion_congr (h : t'.migrations = t.migrations) :
    t'.selectVersion = t.selectVersion := by
  unfold selectVersion
  rw [h]

/-- The highest of some versions, if it fits into the narrower word. -/
theorem selectVersion_cons {first : Int64} {rest : List Int64}
    (h : t.migrations = some (first :: rest)) :
    t.selectVersion = if -2147483648 ≤ rest.foldl selectVersion.max first.toInt ∧
        rest.foldl selectVersion.max first.toInt ≤ 2147483647 then
      .ok (some (Int32.ofInt (rest.foldl selectVersion.max first.toInt)))
    else .error .outOfRange := by
  rw [selectVersion, h]

theorem execute_selectVersion_inv (h : t.execute .selectVersion = .ok (version?, t')) :
    t.selectVersion = .ok version? ∧ t' = t := by
  rw [execute] at h
  cases hRead : t.selectVersion with
  | error fault =>
    rw [hRead] at h
    cases h
  | ok read =>
    rw [hRead] at h
    cases h
    exact ⟨rfl, rfl⟩

theorem max_cases (a : Int) (b : Int64) :
    b.toInt ≤ selectVersion.max a b ∧ (selectVersion.max a b = a ∨ selectVersion.max a b = b.toInt) := by
  unfold selectVersion.max
  split <;> omega

/-- A version that was recorded is not above the highest one, and leaves it in range. -/
theorem selectVersion_insertVersion {version : Int64} {u : Unit}
    (hRead : t.selectVersion = .ok version?) (hInsert : t.insertVersion version = .ok (u, t'))
    (hLow : -2147483648 ≤ version.toInt) (hHigh : version.toInt ≤ 2147483647) :
    ∃ highest, t'.selectVersion = .ok (some highest) ∧ version.toInt ≤ highest.toInt := by
  -- it is enough that the highest version is in range
  have hHighest : ∀ {first : Int64} {rest : List Int64}, t'.migrations = some (first :: rest) →
      version.toInt ≤ rest.foldl selectVersion.max first.toInt →
      rest.foldl selectVersion.max first.toInt ≤ 2147483647 →
      ∃ highest, t'.selectVersion = .ok (some highest) ∧ version.toInt ≤ highest.toInt := by
    intro first rest hVersions hAbove hWithin
    rw [selectVersion_cons hVersions, if_pos ⟨Int.le_trans hLow hAbove, hWithin⟩]
    refine ⟨_, rfl, ?_⟩
    rwa [Int32.toInt_ofInt_of_le (by simp; omega) (by omega)]
  unfold insertVersion at hInsert
  split at hInsert
  · cases hInsert
  · rename_i versions hVersions
    split at hInsert
    · cases hInsert
    · split at hInsert
      · cases hInsert
      · cases hInsert
        cases versions with
        | nil => exact hHighest rfl (Int.le_refl _) hHigh
        | cons first rest =>
          rw [selectVersion_cons hVersions] at hRead
          split at hRead
          · rename_i hRange
            -- the new version takes the place of the highest one, or does not
            obtain ⟨hAbove, hMax⟩ := max_cases (rest.foldl selectVersion.max first.toInt) version
            refine @hHighest _ (rest ++ [version]) rfl ?_ ?_
            · rwa [List.foldl_append]
            · rw [List.foldl_append, List.foldl_cons, List.foldl_nil]
              omega
          · cases hRead

end Tables

/-! ## Attempts -/

section Attempts

variable {α β : Type} {s s' s₁ : Store} {x : Attempt α} {f : α → Attempt β}

theorem run_single (st : Statement) (s : Store) : s.run st.attempt.run = execute st s := rfl

/-- An attempt goes on where its first part has succeeded. -/
theorem run_bind_ok {a : α} (h : s.run x.run = (.ok a, s₁)) :
    s.run (x >>= f).run = s₁.run (f a).run := by
  rw [run] at h
  refine (Program.run_bind execute x.run _ s).trans ?_
  rw [h]
  rfl

/-- An attempt that has succeeded has a first part that has. -/
theorem run_bind_inv {b : β} (h : s.run (x >>= f).run = (.ok b, s')) :
    ∃ a s₁, s.run x.run = (.ok a, s₁) ∧ s₁.run (f a).run = (.ok b, s') := by
  have hSplit := (Program.run_bind execute x.run _ s).symm.trans h
  cases hFirst : s.run x.run with
  | mk reply s₁ =>
    rw [run] at hFirst
    rw [hFirst] at hSplit
    cases reply with
    | ok a => exact ⟨a, s₁, rfl, hSplit⟩
    | error fault => cases hSplit

/-- A statement that has succeeded is one of an open store. -/
theorem execute_ok_inv {st : Statement} {result : st.Result} (h : execute st s = (.ok result, s')) :
    s.closed = false ∧ s'.closed = false ∧ s.tables.execute st = .ok (result, s'.tables) := by
  unfold execute at h
  split at h
  · cases h
  · rename_i hOpen
    rw [Bool.not_eq_true] at hOpen
    split at h
    · rename_i hTables
      cases h
      exact ⟨hOpen, hOpen, hTables⟩
    · cases h

end Attempts

/-! ## Migrations -/

/-- A step of a migration that has succeeded leaves its version behind, or a higher one. -/
theorem step_recorded {table : TableName} {version : Int64} {version? : Option Int32}
    {s s' : Store} {u : Unit} (hTable : table ≠ .migrations)
    (hLow : -2147483648 ≤ version.toInt) (hHigh : version.toInt ≤ 2147483647)
    (hRead : s.tables.selectVersion = .ok version?)
    (h : s.run (Migration.step table version).run = (.ok u, s')) :
    s'.closed = false ∧
      ∃ highest, s'.tables.selectVersion = .ok (some highest) ∧ version.toInt ≤ highest.toInt := by
  obtain ⟨_, s₁, hMake, hRest⟩ := run_bind_inv h
  obtain ⟨_, s₂, hIndex, hRest⟩ := run_bind_inv hRest
  obtain ⟨_, s₃, hInsert, hRest⟩ := run_bind_inv hRest
  cases hRest
  rw [run_single] at hMake hIndex hInsert
  -- the table and its index have nothing to do with the versions
  have hVersions : s₂.tables.migrations = s.tables.migrations := by
    have hFirst := (execute_keeps (.createTable table) s).2.migrations
    have hSecond := (execute_keeps (.createIndex table) s₁).2.migrations
    have hOther : some table ≠ some TableName.migrations := by simpa using hTable
    rw [hMake] at hFirst
    rw [hIndex] at hSecond
    exact (hSecond.resolve_right hOther).trans (hFirst.resolve_right hOther)
  obtain ⟨-, hOpen, hInserted⟩ := execute_ok_inv hInsert
  rw [← Tables.selectVersion_congr hVersions] at hRead
  exact ⟨hOpen, Tables.selectVersion_insertVersion hRead hInserted hLow hHigh⟩

namespace Current

variable {s s' : Store}

/-- **A migration leaves a current store as it is.** -/
theorem run_runAll (h : s.Current) : s.run Migration.runAll.run = (.ok (), s) := by
  obtain ⟨version, hRead, hNewest⟩ := h.version
  have hTable := Tables.hasTable_of_selectVersion hRead
  have hMake : s.run (Statement.createTable .migrations).attempt.run = (.ok (), s) := by
    refine execute_eq_ok (t := s.tables) h.isOpen ?_
    rw [Tables.execute, createTable_of_hasTable hTable]
  have hSelect : s.run Statement.selectVersion.attempt.run = (.ok (some version), s) := by
    refine execute_eq_ok (t := s.tables) h.isOpen ?_
    rw [Tables.execute, hRead]
    rfl
  have hDone : Migration.upgrade ((some version).getD 0) = pure () := if_neg hNewest
  rw [Migration.runAll_eq, run_bind_ok hMake, run_bind_ok hSelect, hDone]
  rfl

/-- The second step of a migration leaves a current store behind. -/
theorem of_step {version? : Option Int32} {u : Unit} (hRead : s.tables.selectVersion = .ok version?)
    (h : s.run (Migration.step .properties 2).run = (.ok u, s')) : s'.Current := by
  obtain ⟨hOpen, highest, hHighest, hAbove⟩ :=
    step_recorded (by decide) (by decide) (by decide) hRead h
  exact ⟨hOpen, highest, hHighest, Int32.not_lt.mpr (Int32.le_iff_toInt_le.mpr hAbove)⟩

/-- **A migration that succeeds leaves a current store behind**, whatever it has found. -/
theorem of_run (h : s.run Migration.runAll.run = (.ok (), s')) : s'.Current := by
  rw [Migration.runAll_eq] at h
  obtain ⟨_, s₁, -, hRest⟩ := run_bind_inv h
  obtain ⟨version?, s₂, hSelect, hUpgrade⟩ := run_bind_inv hRest
  obtain ⟨-, hOpen, hSelected⟩ := execute_ok_inv hSelect
  obtain ⟨hRead, hSame⟩ := Tables.execute_selectVersion_inv hSelected
  rw [← hSame] at hRead
  unfold Migration.upgrade at hUpgrade
  split at hUpgrade
  · split at hUpgrade
    · -- both tables are made, the one for properties last
      obtain ⟨_, s₃, hFirst, hLast⟩ := run_bind_inv hUpgrade
      obtain ⟨-, highest, hHighest, -⟩ :=
        step_recorded (by decide) (by decide) (by decide) hRead hFirst
      exact of_step hHighest hLast
    · exact of_step hRead hUpgrade
  · rename_i hNewest
    cases hUpgrade
    cases version? with
    | none => exact absurd (by decide) hNewest
    | some version => exact ⟨hOpen, version, hRead, hNewest⟩

/-! ## Use -/

/-- Statements about rows leave the versions alone. -/
theorem after_execute {st : Statement} {part : Part} (hPart : st.part? = some part) (h : s.Current) :
    (execute st s).2.Current := by
  obtain ⟨hClosed, hTables⟩ := execute_keeps st s
  have hOther : st.table? ≠ some .migrations := by
    cases st <;> simp [Statement.table?, Statement.part?] at hPart ⊢
  have hVersions := hTables.migrations.resolve_right hOther
  refine ⟨hClosed.trans h.isOpen, ?_⟩
  rw [Tables.selectVersion_congr hVersions]
  exact h.version

theorem after_perform (call : RecordCall) (h : s.Current) : (s.perform call).2.Current :=
  (asks_part call).run_keeps (fun _ _ hPart hs => hs.after_execute hPart) h

/-- **Whatever is asked of a manager, its store stays current.** -/
theorem after_action (r : Request) (enabled : Bool) (now : Millis) (h : s.Current) :
    ((r.action enabled).run.run (Effect.answer now) s).2.Current := by
  refine (Asks.of_forall (fun _ => trivial) (r.action enabled).run).run_keeps
    (P := fun _ => True) (fun effect s _ hs => ?_) h
  cases effect with
  | readClock => exact hs
  | record call => exact hs.after_perform call

end Current

/-! ## Rows -/

/-- The rows of locks and of properties with their identifiers; a table that is missing has none. -/
def Tables.rows (t : Tables) : List (Row Key Lock) × List (Row (Key × String) String) :=
  ((t.locks.map Table.rows).getD [], (t.properties.map Table.rows).getD [])

/-- A table that is made has as many rows as one that is missing, and another one is left alone. -/
theorem rows_of_change {κ α : Type} [DecidableEq κ] {touched : κ → Prop} {t t' : Option (Table κ α)}
    (hNone : ∀ k, ¬ touched k) (h : t' = t ∨ Table.Change touched t t') :
    (t'.map Table.rows).getD [] = (t.map Table.rows).getD [] := by
  rcases h with rfl | hChange
  · rfl
  · cases t with
    | none =>
      cases hChange
      rfl
    | some t => rw [eq_of_change hChange hNone]

theorem rows_execute {st : Statement} (hPart : st.part? = none) (s : Store) :
    (execute st s).2.tables.rows = s.tables.rows := by
  obtain ⟨-, hTables⟩ := execute_keeps st s
  have hNone : ∀ part, st.part? ≠ some part := by simp [hPart]
  exact Prod.ext (rows_of_change (fun _ => hNone _) (hTables.locks.imp_right And.right))
    (rows_of_change (fun _ => hNone _) (hTables.properties.imp_right And.right))

/-- **No migration touches a row**, whether it succeeds or not. -/
theorem rows_runAll (s : Store) : (s.run Migration.runAll.run).2.tables.rows = s.tables.rows := by
  have hKeeps : (Migration.runAll.run.run execute s).2.tables.rows = s.tables.rows :=
    Migration.asks_runAll.run_keeps (I := fun s' => s'.tables.rows = s.tables.rows)
      (fun _ s' hPart hSame => (rows_execute hPart s').trans hSame) rfl
  exact hKeeps

end Latch.Store
