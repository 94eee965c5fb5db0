import Latch.Config.Written
import Latch.Proofs.Toml.Line

/-!
# Written settings are read back

Settings are written as five lines at most, which are read one by one. The lines make two tables,
and the tables make the settings.

* `Config.lines` — what the lines of written settings say;
* `Config.entries` — the tables that they make.

Main results:

* `Config.spells_render` — written settings are made of those lines;
* `Config.parse?_render` — settings are read back from their text, whatever the path contains.
-/

namespace Latch.Config

open Toml (Entries IsName Line Reads Spells Value)

/-! ## Lines -/

theorem spells_heading (name : String) {rest : List Char} {lines : List Line}
    (hName : IsName name.toList) (hRest : Spells rest lines) :
    Spells (heading name ++ rest) (.header [name] :: lines) := by
  have hText : heading name ++ rest = '[' :: (name.toList ++ ']' :: '\n' :: rest) := by
    simp [heading]
  have hLine := Toml.line?_header hName rest
  rw [String.ofList_toList] at hLine
  rw [hText]
  refine Spells.line ⟨'[', _, rfl, by decide⟩ hLine ?_ hRest
  simp
  omega

theorem spells_field (name : String) {text rest : List Char} {value : Value} {lines : List Line}
    (hName : IsName name.toList) (hValue : Reads text value) (hRest : Spells rest lines) :
    Spells (field name text ++ rest) (.entry [name] value :: lines) := by
  have hText : field name text ++ rest =
      name.toList ++ ' ' :: '=' :: ' ' :: (text ++ '\n' :: rest) := by
    simp [field]
  have hLine := Toml.line?_entry hName hValue rest
  rw [String.ofList_toList] at hLine
  rw [hText]
  refine Spells.line (hName.startsLine _) hLine ?_ hRest
  simp
  omega

/-- The field of a path, if there is one. -/
def pathEntries (path? : Option Path) : Entries :=
  match path? with
  | some path => [(pathField, .string path.text)]
  | none => []

/-- What the lines of written settings say. -/
def lines (config : Config) : List Line :=
  [.header [switchSection], .entry [switchField] (.boolean config.perUserEnabled),
      .header [storeSection]] ++
    (pathEntries config.store.path?).map (fun (name, value) => .entry [name] value) ++
    [.entry [countField] (.integer config.store.maxConnections.toNat)]

theorem spells_pathLine (path? : Option Path) {rest : List Char} {lines : List Line}
    (hRest : Spells rest lines) :
    Spells (pathLine path? ++ rest)
      ((pathEntries path?).map (fun (name, value) => .entry [name] value) ++ lines) := by
  cases path? with
  | none => exact hRest
  | some path =>
    have hValue := Toml.reads_quote path.text.toList
    rw [String.ofList_toList] at hValue
    exact spells_field pathField (by decide) hValue hRest

/-- A count is small enough for a number of the document. -/
theorem reads_count (n : UInt32) : Reads (countText n).toList (.integer n.toNat) := by
  have hSmall : n.toNat < 4294967296 := n.toNat_lt
  have hText : (countText n).toList = Decimal.nat n.toNat := by
    simp [countText, Decimal.natText]
  rw [hText]
  exact Toml.reads_nat (by omega)

theorem spells_render (config : Config) : Spells config.render.toList config.lines := by
  -- from the last line to the first
  have hCount := spells_field countField (by decide)
    (reads_count config.store.maxConnections) .nil
  have hStore := spells_heading storeSection (by decide)
    (spells_pathLine config.store.path? hCount)
  have hSwitch := spells_field switchField (by decide)
    (Toml.reads_boolean config.perUserEnabled) hStore.empty
  have hAll := spells_heading switchSection (by decide) hSwitch
  simpa [render, lines] using hAll

/-! ## Tables -/

/-- The table of the settings of the store. -/
def storeEntries (settings : StoreSettings) : Entries :=
  pathEntries settings.path? ++ [(countField, .integer settings.maxConnections.toNat)]

/-- The tables that the lines of written settings make. -/
def entries (config : Config) : Entries :=
  [(switchSection, .table .headed [(switchField, .boolean config.perUserEnabled)]),
    (storeSection, .table .headed (storeEntries config.store))]

theorem ofLines?_lines (config : Config) :
    Toml.Document.ofLines? config.lines = some config.entries := by
  obtain ⟨perUserEnabled, ⟨path?, maxConnections⟩⟩ := config
  cases path? <;> rfl

theorem asCount?_toNat (n : UInt32) : asCount? (.integer n.toNat) = some n := by
  have hSmall : n.toNat < UInt32.size := n.toNat_lt
  simp [asCount?, hSmall]

theorem store?_entries (settings : StoreSettings) :
    store? (.table .headed (storeEntries settings)) = some settings := by
  obtain ⟨path?, maxConnections⟩ := settings
  -- the path is looked up first, and only the count has to be checked
  have hCount : store? (.table .headed (storeEntries ⟨path?, maxConnections⟩)) =
      (asCount? (.integer maxConnections.toNat)).bind fun n => some ⟨path?, n⟩ := by
    cases path? <;> rfl
  rw [hCount, asCount?_toNat, Option.bind_some]

theorem ofEntries?_entries (config : Config) : ofEntries? config.entries = some config := by
  have hStore : ofEntries? config.entries =
      (store? (.table .headed (storeEntries config.store))).bind fun store =>
        some ⟨config.perUserEnabled, store⟩ := rfl
  rw [hStore, store?_entries, Option.bind_some]

/-- **Settings are read back from their text**, whatever the path contains. -/
theorem parse?_render (config : Config) : parse? config.render = some config := by
  have hMark : dropByteOrderMark config.render.toList = config.render.toList := by
    rw [render, String.toList_ofList]
    rfl
  have hTable : Toml.Document.ofText? config.render = some config.entries := by
    rw [Toml.Document.ofText?, hMark, (spells_render config).lines?]
    exact ofLines?_lines config
  rw [parse?, hTable]
  exact ofEntries?_entries config

end Latch.Config
