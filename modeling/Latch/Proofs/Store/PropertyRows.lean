import Latch.Proofs.Store.Frame
import Latch.Proofs.Store.LockRows

/-!
# The property rows of a store

What statements do to the stored properties, seen for each key as a map from names.

* `Store.property?` — the stored value of a name;
* `Store.PropertiesReady` — the store is open, it has its table of properties, and no guard watches
  that table.

Main results:

* `Store.execute_selectProperties` … `Store.execute_deleteProperties` — what a statement that succeeds
  has done;
* `Store.PropertiesReady.execute_selectProperties` … `Store.PropertiesReady.execute_deleteProperties` —
  which statements succeed on a ready store.
-/

namespace Latch.Store

/-- The stored properties of a key. -/
def property? (s : Store) (key : Key) (name : String) : Option String :=
  s.tables.properties.bind (·.get? (key, name))

theorem property?_of_table {s : Store} {properties : PropertyTable}
    (h : s.tables.properties = some properties) (key : Key) (name : String) :
    s.property? key name = properties.get? (key, name) := by
  rw [property?, h, Option.bind_some]

/-- One name of one key gets another value. -/
theorem property?_update {s s' : Store} {key : Key} {name : String} {value : Option String}
    (h : ∀ k n, s'.property? k n = if (k, n) = (key, name) then value else s.property? k n) :
    s'.property? =
      Function.update s.property? key (Function.update (s.property? key) name value) := by
  funext k n
  rw [h]
  by_cases hk : k = key
  · subst hk
    by_cases hn : n = name
    · simp [hn]
    · simp [hn]
  · simp [hk]

/-! ## The entries of a key -/

theorem mem_propertiesOf {properties : PropertyTable} {key : Key} {name value : String} :
    (name, value) ∈ Tables.propertiesOf properties key ↔
      properties.get? (key, name) = some value := by
  rw [Table.get?_eq_some_iff]
  simp only [Tables.propertiesOf, List.mem_filterMap]
  constructor
  · rintro ⟨row, hMem, hRow⟩
    split at hRow
    · rename_i hKey
      cases hRow
      exact ⟨row, hMem, by rw [← hKey], rfl⟩
    · cases hRow
  · rintro ⟨row, hMem, hKey, rfl⟩
    exact ⟨row, hMem, by simp [hKey]⟩

/-- The entries of a key are its rows, without the key. -/
theorem propertiesOf_eq (properties : PropertyTable) (key : Key) :
    Tables.propertiesOf properties key =
      (properties.rows.filter (·.key.1 = key)).map fun row => (row.key.2, row.value) := by
  unfold Tables.propertiesOf
  induction properties.rows with
  | nil => rfl
  | cons row rest ih =>
    rw [List.filterMap_cons, List.filter_cons]
    by_cases hKey : row.key.1 = key
    · simp [hKey, ih]
    · simp [hKey, ih]

/-- No name occurs twice among the entries of a key. -/
theorem nodup_propertiesOf (properties : PropertyTable) (key : Key) :
    ((Tables.propertiesOf properties key).map Prod.fst).Nodup := by
  have hRows : properties.rows.Pairwise fun a b => a.key ≠ b.key :=
    List.pairwise_map.mp properties.nodup
  rw [Tables.propertiesOf, List.Nodup, List.pairwise_map, List.pairwise_filterMap]
  refine hRows.imp ?_
  intro a b hNe x hx y hy hName
  -- rows of one key and one name are the same row
  split at hx
  · rename_i ha
    split at hy
    · rename_i hb
      cases hx
      cases hy
      exact hNe (Prod.ext (ha.trans hb.symm) hName)
    · cases hy
  · cases hx

theorem get?_ofList_propertiesOf (properties : PropertyTable) (key : Key) (name : String) :
    (Properties.ofList (Tables.propertiesOf properties key)).get? name =
      properties.get? (key, name) := by
  apply Option.ext
  intro value
  rw [Properties.get?_eq_some_iff, Properties.entries_ofList (nodup_propertiesOf properties key)]
  exact mem_propertiesOf

/-! ## Statements that succeed -/

/-- The rows of a key are its properties. -/
theorem execute_selectProperties {s s' : Store} {key : Key} {rows : List (String × String)}
    (h : execute (.selectProperties key) s = (.ok rows, s')) :
    (Properties.ofList rows).get? = s.property? key ∧ s' = s := by
  obtain ⟨-, t, hTables, rfl⟩ := execute_of_ok h
  simp only [Tables.execute] at hTables
  split at hTables
  · cases hTables
  · rename_i properties hProperties
    cases hTables
    refine ⟨funext fun name => ?_, rfl⟩
    rw [get?_ofList_propertiesOf, property?_of_table hProperties]

theorem execute_insertProperty {s s' : Store} {key : Key} {name value : String} {u : Unit}
    (h : execute (.insertProperty key name value) s = (.ok u, s')) :
    s.property? key name = none ∧ s'.property? =
      Function.update s.property? key (Function.update (s.property? key) name (some value)) := by
  obtain ⟨-, t, hTables, rfl⟩ := execute_of_ok h
  simp only [Tables.execute, Tables.insertProperty] at hTables
  split at hTables
  · cases hTables
  · rename_i properties hProperties
    split at hTables
    · cases hTables
    · split at hTables
      · cases hTables
      · rename_i properties' hInsert
        cases hTables
        -- the table would have refused a name that is there
        have hNew : properties.get? (key, name) = none := by
          rw [← Option.not_isSome_iff_eq_none, ← Table.insert?_eq_none_iff, hInsert]
          simp
        refine ⟨by rw [property?_of_table hProperties, hNew], property?_update fun k n => ?_⟩
        rw [property?_of_table rfl, property?_of_table hProperties, Table.get?_insert? hInsert]

theorem execute_updateProperty {s s' : Store} {key : Key} {name value : String} {u : Unit}
    (h : execute (.updateProperty key name value) s = (.ok u, s')) :
    s'.property? = Function.update s.property? key
      (Function.update (s.property? key) name ((s.property? key name).map fun _ => value)) := by
  obtain ⟨-, t, hTables, rfl⟩ := execute_of_ok h
  simp only [Tables.execute, Tables.updateProperty] at hTables
  split at hTables
  · cases hTables
  · rename_i properties hProperties
    split at hTables
    · cases hTables
    · cases hTables
      refine property?_update fun k n => ?_
      rw [property?_of_table rfl, property?_of_table hProperties, property?_of_table hProperties,
        Table.get?_update]
      split
      · rename_i hKey
        rw [hKey]
      · rfl

/-- A removal takes away the names of one key that pass the test. -/
theorem deletePropertiesWhere_ok {t t' : Tables} {key : Key} {test : String → Bool} {u : Unit}
    (h : t.deletePropertiesWhere key test = .ok (u, t')) :
    ∃ properties properties', t.properties = some properties ∧ t'.properties = some properties' ∧
      ∀ k n, properties'.get? (k, n) =
        if k = key ∧ test n = true then none else properties.get? (k, n) := by
  simp only [Tables.deletePropertiesWhere] at h
  split at h
  · cases h
  · rename_i properties hProperties
    split at h
    · cases h
    · cases h
      refine ⟨properties, _, hProperties, rfl, fun k n => ?_⟩
      rw [Table.get?_deleteWhere]
      by_cases hTest : k = key ∧ test n = true
      · rw [if_pos hTest]
        simp [hTest.1, hTest.2]
      · rw [if_neg hTest]
        have hKept : (!(decide (k = key) && test n)) = true := by
          simpa [Decidable.imp_iff_not_or] using hTest
        cases hGet : properties.get? (k, n) <;> simp [hKept]

theorem execute_deleteProperty {s s' : Store} {key : Key} {name : String} {u : Unit}
    (h : execute (.deleteProperty key name) s = (.ok u, s')) :
    s'.property? =
      Function.update s.property? key (Function.update (s.property? key) name none) := by
  obtain ⟨-, t, hTables, rfl⟩ := execute_of_ok h
  simp only [Tables.execute] at hTables
  obtain ⟨properties, properties', hBefore, hAfter, hGet⟩ := deletePropertiesWhere_ok hTables
  refine property?_update fun k n => ?_
  rw [property?_of_table hAfter, property?_of_table hBefore, hGet]
  simp only [Prod.mk.injEq, decide_eq_true_eq]

theorem execute_deleteProperties {s s' : Store} {key : Key} {u : Unit}
    (h : execute (.deleteProperties key) s = (.ok u, s')) :
    s'.property? = Function.update s.property? key fun _ => none := by
  obtain ⟨-, t, hTables, rfl⟩ := execute_of_ok h
  simp only [Tables.execute] at hTables
  obtain ⟨properties, properties', hBefore, hAfter, hGet⟩ := deletePropertiesWhere_ok hTables
  funext k n
  rw [property?_of_table hAfter, hGet]
  by_cases hk : k = key
  · simp [hk]
  · rw [Function.update_of_ne hk, property?_of_table hBefore]
    simp [hk]

/-! ## Stores without failures -/

structure PropertiesReady (s : Store) : Prop where
  isOpen : s.closed = false
  hasProperties : s.tables.properties.isSome = true
  permits : ∀ kind name, s.tables.forbids .properties kind (some name) = false

namespace PropertiesReady

variable {s : Store}

theorem exists_properties (h : s.PropertiesReady) :
    ∃ properties, s.tables.properties = some properties :=
  Option.isSome_iff_exists.mp h.hasProperties

/-- Other rows in the table of properties make no difference. -/
theorem with_properties (h : s.PropertiesReady) (properties : PropertyTable) :
    PropertiesReady { s with tables := { s.tables with properties := some properties } } :=
  ⟨h.isOpen, rfl, h.permits⟩

theorem execute_selectProperties (h : s.PropertiesReady) (key : Key) :
    ∃ rows, execute (.selectProperties key) s = (.ok rows, s) := by
  obtain ⟨properties, hProperties⟩ := h.exists_properties
  refine ⟨Tables.propertiesOf properties key, execute_eq_ok h.isOpen ?_⟩
  simp [Tables.execute, hProperties]

theorem execute_insertProperty (h : s.PropertiesReady) {key : Key} {name : String} (value : String)
    (hNew : s.property? key name = none) :
    ∃ s', execute (.insertProperty key name value) s = (.ok (), s') ∧ s'.PropertiesReady := by
  obtain ⟨properties, hProperties⟩ := h.exists_properties
  rw [property?_of_table hProperties] at hNew
  cases hInsert : properties.insert? (key, name) value with
  | none => simp [Table.insert?_eq_none_iff, hNew] at hInsert
  | some properties' =>
    refine ⟨_, execute_eq_ok h.isOpen ?_, h.with_properties properties'⟩
    simp [Tables.execute, Tables.insertProperty, hProperties, h.permits, hInsert]

/-- A name that is there already is left alone, and the statement fails. -/
theorem execute_insertProperty_duplicate (h : s.PropertiesReady) {key : Key} {name : String}
    (value : String) (hOld : s.property? key name ≠ none) :
    execute (.insertProperty key name value) s = (.error .duplicate, s) := by
  obtain ⟨properties, hProperties⟩ := h.exists_properties
  rw [property?_of_table hProperties] at hOld
  have hInsert : properties.insert? (key, name) value = none :=
    Table.insert?_eq_none_iff.mpr (Option.isSome_iff_ne_none.mpr hOld)
  refine execute_eq_error h.isOpen ?_
  simp [Tables.execute, Tables.insertProperty, hProperties, h.permits, hInsert]

theorem execute_updateProperty (h : s.PropertiesReady) (key : Key) (name value : String) :
    ∃ s', execute (.updateProperty key name value) s = (.ok (), s') ∧ s'.PropertiesReady := by
  obtain ⟨properties, hProperties⟩ := h.exists_properties
  refine ⟨_, execute_eq_ok h.isOpen ?_, h.with_properties (properties.update (key, name) value)⟩
  simp [Tables.execute, Tables.updateProperty, hProperties, h.permits]

theorem execute_selectProperty (h : s.PropertiesReady) (key : Key) (name : String) :
    execute (.selectProperty key name) s = (.ok (s.property? key name), s) := by
  obtain ⟨properties, hProperties⟩ := h.exists_properties
  refine execute_eq_ok h.isOpen ?_
  simp [Tables.execute, hProperties, property?_of_table hProperties]

theorem deletePropertiesWhere (h : s.PropertiesReady) (key : Key) (test : String → Bool) :
    ∃ t, s.tables.deletePropertiesWhere key test = .ok ((), t) := by
  obtain ⟨properties, hProperties⟩ := h.exists_properties
  let left := properties.deleteWhere fun k _ => decide (k.1 = key) && test k.2
  refine ⟨{ s.tables with properties := some left }, ?_⟩
  -- no row is watched, so the removal cannot be refused
  simp [Tables.deletePropertiesWhere, hProperties, h.permits, Table.anyWhere, left]

theorem execute_deleteProperty (h : s.PropertiesReady) (key : Key) (name : String) :
    ∃ s', execute (.deleteProperty key name) s = (.ok (), s') := by
  obtain ⟨t, hDelete⟩ := h.deletePropertiesWhere key (· = name)
  exact ⟨_, execute_eq_ok h.isOpen hDelete⟩

theorem execute_deleteProperties (h : s.PropertiesReady) (key : Key) :
    ∃ s', execute (.deleteProperties key) s = (.ok (), s') := by
  obtain ⟨t, hDelete⟩ := h.deletePropertiesWhere key fun _ => true
  exact ⟨_, execute_eq_ok h.isOpen hDelete⟩

/-- No statement closes a store, drops its table, or puts up a guard. -/
theorem after_execute (h : s.PropertiesReady) (st : Statement) : (execute st s).2.PropertiesReady := by
  obtain ⟨hClosed, hTables⟩ := execute_keeps st s
  refine ⟨hClosed.trans h.isOpen, ?_, fun kind name => ?_⟩
  · rcases hTables.properties with hSame | ⟨-, hChange⟩
    · rw [hSame]
      exact h.hasProperties
    · exact isSome_of_change hChange
  · rw [Tables.forbids, hTables.guards]
    exact h.permits kind name

end PropertiesReady

end Latch.Store
