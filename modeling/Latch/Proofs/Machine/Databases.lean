import Latch.Proofs.Machine.Files
import Latch.Proofs.Store.Current
import Latch.Store.Opening

/-!
# Databases on a machine

A store is opened from a file, migrated, and left in its file again. Opening makes directories where
there is nothing, and a migration touches no row, so whoever only opens a store leaves the rows of every
file as they were.

* `Files.rowsAt` — the rows of locks and properties that a file holds;
* `OpenStore.InPlace` — the rows of a store in use are still those of its file;
* `StoreConfig.LeadsTo` — a store is to be opened, and is found in a certain file.

Main results:

* `OpenStore.rowsAt_ofConfig` — opening a store changes no row of any file, whether it succeeds or not;
* `OpenStore.InPlace.rowsAt_leave` — nor does leaving a store whose rows have not changed;
* `OpenStore.ofConfig_inv`, `StoreConfig.LeadsTo.ofConfig_eq` — what is opened is what a migration makes
  of the tables that are found.
-/

namespace Latch

open OpenStore (tablesAt?)
open Store (Tables)

/-! ## Rows in files -/

namespace Files

variable {files files' : Files} {location other : Location} {tables : Tables}

/-- The rows of locks and properties in a file; whatever is no database has none. -/
def rowsAt (files : Files) (location : Location) :
    List (Store.Row Key Lock) × List (Store.Row (Key × String) String) :=
  match files.node? location with
  | some (.file (.database tables)) => tables.rows
  | _ => ([], [])

theorem rowsAt_of_node (h : files.node? location = some (.file (.database tables))) :
    files.rowsAt location = tables.rows := by
  rw [rowsAt, h]

theorem rowsAt_of_other (h : ∀ tables, files.node? location ≠ some (.file (.database tables))) :
    files.rowsAt location = ([], []) := by
  unfold rowsAt
  split
  · rename_i tables hNode
    exact absurd hNode (h tables)
  · rfl

/-- Rows are a matter of the file alone. -/
theorem rowsAt_congr (h : SameFile location files files') :
    files'.rowsAt location = files.rowsAt location := by
  by_cases hDatabase : ∃ tables, files.node? location = some (.file (.database tables))
  · obtain ⟨tables, hNode⟩ := hDatabase
    rw [rowsAt_of_node hNode, rowsAt_of_node ((h _).mpr hNode)]
  · rw [not_exists] at hDatabase
    rw [rowsAt_of_other hDatabase, rowsAt_of_other fun tables hNode => hDatabase tables ((h _).mp hNode)]

/-- The tables that are found in a file have its rows. -/
theorem rowsAt_of_tablesAt? (h : tablesAt? files location = some tables) :
    files.rowsAt location = tables.rows := by
  unfold tablesAt? at h
  split at h
  · rename_i hNode
    cases h
    exact rowsAt_of_other (by simp [hNode])
  · rename_i hNode
    cases h
    exact rowsAt_of_node hNode
  · rename_i hNode
    cases h
    exact rowsAt_of_other (by simp [hNode])
  · cases h

/-- Tables are found in files, not in directories. -/
theorem ne_root_of_tablesAt? (h : tablesAt? files location = some tables) : location ≠ [] := by
  rintro rfl
  cases h

theorem tablesAt?_put (hRoot : location ≠ []) :
    tablesAt? (files.put location (.file (.database tables))) location = some tables := by
  rw [tablesAt?, node?_put_self hRoot]

/-- A file that is overwritten with the rows that it had. -/
theorem rowsAt_put (hRoot : location ≠ []) (hRows : tables.rows = files.rowsAt location) :
    (files.put location (.file (.database tables))).rowsAt = files.rowsAt := by
  funext other
  by_cases hOther : other = location
  · subst hOther
    rw [rowsAt_of_node (node?_put_self hRoot), hRows]
  · exact rowsAt_congr (sameFile_put_file hOther)

/-- Tables that are found after directories were made were there before. -/
theorem tablesAt?_of_keeps (hKeeps : Keeps files files') (hSame : SameFile location files files')
    (h : tablesAt? files' location = some tables) : tablesAt? files location = some tables := by
  cases hNode : files.node? location with
  | none =>
    -- nothing was there, so nothing that was found can be a file
    cases hNode' : files'.node? location with
    | none =>
      rw [tablesAt?, hNode'] at h
      rwa [tablesAt?, hNode]
    | some node =>
      cases node with
      | directory =>
        rw [tablesAt?, hNode'] at h
        cases h
      | file content =>
        rw [(hSame content).mp hNode'] at hNode
        cases hNode
  | some node =>
    cases node with
    | directory =>
      have hStill := hKeeps location (by simp [isDirectoryAt, hNode])
      rw [isDirectoryAt, decide_eq_true_eq] at hStill
      rw [tablesAt?, hStill] at h
      cases h
    | file content =>
      rw [tablesAt?, (hSame content).mpr hNode] at h
      rwa [tablesAt?, hNode]

end Files

/-! ## Opening -/

namespace OpenStore

variable {machine machine' : Machine} {s s' : OpenStore} {path : Path} {config : StoreConfig}
  {location db : Location} {tables : Tables}

/-- The rows of a store in use are still those of its file. -/
def InPlace (s : OpenStore) (machine : Machine) : Prop :=
  ∀ location, s.file? = some location →
    location ≠ [] ∧ s.store.tables.rows = machine.files.rowsAt location

/-- Leaving a store whose rows have not changed changes the rows of no file. -/
theorem InPlace.rowsAt_leave (h : s.InPlace machine) :
    (s.leave machine).files.rowsAt = machine.files.rowsAt := by
  unfold leave
  cases hFile : s.file? with
  | none => rfl
  | some location =>
    obtain ⟨hRoot, hRows⟩ := h location hFile
    exact Files.rowsAt_put hRoot hRows

theorem tablesAt?_leave (hFile : s.file? = some db) (hRoot : db ≠ []) :
    tablesAt? (s.leave machine).files db = some s.store.tables := by
  rw [leave, hFile]
  exact Files.tablesAt?_put hRoot

/-- Making the directory of a store touches no file. -/
theorem makeDirectory_keeps (machine : Machine) (path : Path) :
    Files.Keeps machine.files (makeDirectory machine path).2.files ∧
      ∀ location, Files.SameFile location machine.files (makeDirectory machine path).2.files := by
  unfold makeDirectory
  split
  · exact ⟨Files.Keeps.refl _, fun location => Files.SameFile.refl location _⟩
  · rename_i directory hParent
    obtain ⟨hKeeps, hSame⟩ := machine.files.makeDirectories_keeps machine.here directory
    split <;> rename_i hMade <;> rw [hMade] at hKeeps hSame <;> exact ⟨hKeeps, hSame⟩

/-- A store that is kept in a file was found there. -/
theorem connect?_inv (h : connect? machine path = some s) :
    ∀ location, s.file? = some location →
      ∃ tables, s.store = ⟨tables, false⟩ ∧ tablesAt? machine.files location = some tables := by
  intro location hFile
  unfold connect? at h
  split at h
  · cases h
  · cases h
    cases hFile
  · split at h
    · cases h
    · simp only [ofFile?, Option.bind_eq_bind, Option.bind_eq_some_iff, Option.pure_def,
        Option.some.injEq] at h
      obtain ⟨found, -, tables, hTables, rfl⟩ := h
      cases hFile
      exact ⟨tables, rfl, hTables⟩

theorem inPlace_connect? (h : connect? machine path = some s) : s.InPlace machine := by
  intro location hFile
  obtain ⟨tables, hStore, hTables⟩ := connect?_inv h location hFile
  rw [hStore]
  exact ⟨Files.ne_root_of_tablesAt? hTables, (Files.rowsAt_of_tablesAt? hTables).symm⟩

/-- A store that a migration brings to the newest version goes back to its file. -/
theorem upgrade_ok {store : Store} (h : s.store.run Store.Migration.runAll.run = (.ok (), store)) :
    upgrade machine s = (.ok { s with store }, ({ s with store } : OpenStore).leave machine) := by
  unfold upgrade migrate OpenStore.run
  rw [h]
  rfl

theorem upgrade_inv (h : (upgrade machine s).1 = .ok s') :
    s.store.run Store.Migration.runAll.run = (.ok (), s'.store) ∧ s'.file? = s.file? := by
  unfold upgrade migrate OpenStore.run at h
  cases hRun : s.store.run Store.Migration.runAll.run with
  | mk result store =>
    rw [hRun] at h
    cases result with
    | ok u =>
      cases h
      exact ⟨rfl, rfl⟩
    | error fault => cases h

/-- A migration leaves the rows of a store in place. -/
theorem InPlace.rowsAt_upgrade (h : s.InPlace machine) :
    (upgrade machine s).2.files.rowsAt = machine.files.rowsAt ∧
      ∀ s', (upgrade machine s).1 = .ok s' → s'.InPlace (upgrade machine s).2 := by
  have hMigrated : (s.migrate.2).InPlace machine := by
    intro location hFile
    obtain ⟨hRoot, hRows⟩ := h location hFile
    exact ⟨hRoot, (Store.rows_runAll s.store).trans hRows⟩
  have hRows : (upgrade machine s).2.files.rowsAt = machine.files.rowsAt := hMigrated.rowsAt_leave
  refine ⟨hRows, fun s' hOk location hFile => ?_⟩
  obtain ⟨hMigrate, hSame⟩ := upgrade_inv hOk
  obtain ⟨hRoot, hMigratedRows⟩ := hMigrated location (hSame.symm.trans hFile)
  have hStore : s.migrate.2.store = s'.store := congrArg Prod.snd hMigrate
  rw [hRows, ← hStore]
  exact ⟨hRoot, hMigratedRows⟩

/-- **Opening a store changes no row of any file**, whether it succeeds or not. -/
theorem rowsAt_ofConfig (machine : Machine) (config : StoreConfig) :
    (ofConfig machine config).2.files.rowsAt = machine.files.rowsAt ∧
      ∀ s, (ofConfig machine config).1 = .ok s → s.InPlace (ofConfig machine config).2 := by
  unfold ofConfig
  split
  · have hMemory : bare.InPlace machine := nofun
    exact hMemory.rowsAt_upgrade
  · obtain ⟨-, hSame⟩ := makeDirectory_keeps machine config.path
    have hMade : (makeDirectory machine config.path).2.files.rowsAt = machine.files.rowsAt :=
      funext fun location => Files.rowsAt_congr (hSame location)
    split
    · rename_i hMake
      rw [hMake] at hMade
      exact ⟨hMade, nofun⟩
    · rename_i hMake
      rw [hMake] at hMade
      split
      · exact ⟨hMade, nofun⟩
      · rename_i s hFound
        obtain ⟨hRows, hInPlace⟩ := (inPlace_connect? hFound).rowsAt_upgrade
        exact ⟨hRows.trans hMade, hInPlace⟩

/-! ## What is opened -/

/-- **What is opened from a file** is what a migration makes of the tables that were there. -/
theorem ofConfig_inv (h : (ofConfig machine config).1 = .ok s) (hFile : s.file? = some db) :
    ∃ tables, tablesAt? machine.files db = some tables ∧
      Store.run ⟨tables, false⟩ Store.Migration.runAll.run = (.ok (), s.store) := by
  unfold ofConfig at h
  split at h
  · obtain ⟨-, hSame⟩ := upgrade_inv h
    rw [hFile] at hSame
    cases hSame
  · obtain ⟨hKeeps, hSame⟩ := makeDirectory_keeps machine config.path
    split at h
    · cases h
    · rename_i hMake
      rw [hMake] at hKeeps hSame
      split at h
      · cases h
      · rename_i found hFound
        obtain ⟨hMigrated, hSameFile⟩ := upgrade_inv h
        obtain ⟨tables, hStore, hTables⟩ := connect?_inv hFound db (hSameFile.symm.trans hFile)
        rw [hStore] at hMigrated
        exact ⟨tables, Files.tablesAt?_of_keeps hKeeps (hSame db) hTables, hMigrated⟩

end OpenStore

/-- A store is to be opened, and is found in a certain file. -/
structure StoreConfig.LeadsTo (config : StoreConfig) (machine : Machine) (db : Location) : Prop where
  isKept : config.isInMemory = false
  directory : (OpenStore.makeDirectory machine config.path).1 = .ok ()
  found : ∃ s, OpenStore.connect? (OpenStore.makeDirectory machine config.path).2 config.path = some s ∧
    s.file? = some db

/-- Where a file is found, its tables are brought to the newest version, if a migration can do that. -/
theorem StoreConfig.LeadsTo.ofConfig_eq {config : StoreConfig} {machine : Machine} {db : Location}
    {tables : Tables} {store : Store} (h : config.LeadsTo machine db)
    (hTables : tablesAt? machine.files db = some tables)
    (hMigrate : Store.run ⟨tables, false⟩ Store.Migration.runAll.run = (.ok (), store)) :
    ∃ s after, OpenStore.ofConfig machine config = (.ok s, after) ∧ s.store = store ∧
      s.file? = some db := by
  obtain ⟨hKept, hDirectory, found, hFound, hFile⟩ := h
  obtain ⟨hKeeps, hSame⟩ := OpenStore.makeDirectory_keeps machine config.path
  obtain ⟨there, hStore, hThere⟩ := OpenStore.connect?_inv hFound db hFile
  -- what is found is what was there before the directory was made
  cases hTables.symm.trans (Files.tablesAt?_of_keeps hKeeps (hSame db) hThere)
  unfold OpenStore.ofConfig
  rw [hKept, if_neg Bool.false_ne_true]
  cases hMake : OpenStore.makeDirectory machine config.path with
  | mk made after =>
    rw [hMake] at hDirectory hFound
    cases hDirectory
    dsimp only at hFound ⊢
    rw [hFound]
    rw [← hStore] at hMigrate
    exact ⟨_, _, OpenStore.upgrade_ok hMigrate, rfl, hFile⟩

end Latch
