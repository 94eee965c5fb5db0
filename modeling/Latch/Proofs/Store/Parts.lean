import Latch.Manager
import Latch.Proofs.Store.PropertyRows

/-!
# The parts of a store

The lock of a key and the properties of a key are parts of a store that have nothing to do with each
other, nor with those of another key. A statement is answered by what its own part looks like, and
it leaves every other part as it was. All this holds whether the store is open or closed, has all of
its tables or not, and forbids writes or not.

* `RecordCall.part`, `Request.part` — what a call or a request is about;
* `Store.Tables.view` — what a part looks like;
* `Store.Agree` — two stores look alike in one part;
* `Store.Tables.Alike` — two stores have answered alike, and look alike in one part afterwards.

Main results:

* `Store.execute_other`, `Store.execute_alike` — statements about another part, and about the same;
* `Store.perform_other`, `Store.perform_alike` — the same for record calls;
* `Key.eq_iff_bytes` — keys are the same only byte for byte.
-/

namespace Latch

open Program (Asks)

/-- Two keys are the same only if their parts are, byte for byte. -/
theorem Key.eq_iff_bytes {k k' : Key} :
    k = k' ↔ ByteOrder.bytes k.user = ByteOrder.bytes k'.user ∧ k.tenant = k'.tenant ∧
      ByteOrder.bytes k.feature = ByteOrder.bytes k'.feature := by
  constructor
  · rintro rfl
    exact ⟨rfl, rfl, rfl⟩
  · rintro ⟨hUser, hTenant, hFeature⟩
    obtain ⟨user, tenant, feature⟩ := k
    obtain ⟨user', tenant', feature'⟩ := k'
    rw [Key.mk.injEq]
    exact ⟨ByteOrder.bytes_inj hUser, hTenant, ByteOrder.bytes_inj hFeature⟩

/-- What a part looks like. Properties are entries in the order of their rows. -/
abbrev Part.View : Part → Type
  | .lock _ => Option Lock
  | .properties _ => List (String × String)

def RecordCall.part (call : RecordCall) : Part :=
  if call.isAboutLock then .lock call.key else .properties call.key

def Request.part (request : Request) : Part :=
  if request.isAboutLock then .lock request.key else .properties request.key

namespace Store

/-! ## The entries of a key -/

section Entries

variable {properties after : PropertyTable} {k key : Key} {name value : String}

theorem get?_eq_lookup (properties : PropertyTable) (key : Key) (name : String) :
    properties.get? (key, name) = (Tables.propertiesOf properties key).lookup name := by
  apply Option.ext
  intro value
  rw [Properties.lookup_eq_some_iff (nodup_propertiesOf properties key)]
  exact mem_propertiesOf.symm

theorem propertiesOf_insert? (h : properties.insert? (k, name) value = some after) :
    Tables.propertiesOf after k = Tables.propertiesOf properties k ++ [(name, value)] := by
  unfold Table.insert? at h
  split at h
  · cases h
  · cases h
    simp [Tables.propertiesOf, List.filterMap_append]

theorem propertiesOf_update (properties : PropertyTable) (key : Key) (name value : String) :
    Tables.propertiesOf (properties.update (key, name) value) key =
      (Tables.propertiesOf properties key).map fun e => if e.1 = name then (e.1, value) else e := by
  unfold Tables.propertiesOf Table.update
  rw [List.filterMap_map, List.map_filterMap]
  congr 1
  funext row
  by_cases hKey : row.key.1 = key
  · by_cases hName : row.key.2 = name
    · have hRow : row.key = (key, name) := Prod.ext hKey hName
      simp [Table.overwrite, hRow]
    · have hRow : row.key ≠ (key, name) := fun hEq => hName (congrArg Prod.snd hEq)
      simp [Table.overwrite, hRow, hKey, hName]
  · have hRow : row.key ≠ (key, name) := fun hEq => hKey (congrArg Prod.fst hEq)
    simp [Table.overwrite, hRow, hKey]

theorem propertiesOf_deleteWhere (properties : PropertyTable) (key : Key) (test : String → Bool) :
    Tables.propertiesOf (properties.deleteWhere fun k _ => decide (k.1 = key) && test k.2) key =
      (Tables.propertiesOf properties key).filter fun e => !test e.1 := by
  rw [propertiesOf_eq, propertiesOf_eq, List.filter_map]
  simp only [Table.deleteWhere, List.filter_filter]
  congr 2
  funext row
  by_cases hKey : row.key.1 = key <;> simp [hKey]

/-- A test of the names of one key asks no other row. -/
theorem anyWhere_properties (properties : PropertyTable) (key : Key) (test : String → Bool) :
    (properties.anyWhere fun k _ => decide (k.1 = key) && test k.2) =
      (Tables.propertiesOf properties key).any fun e => test e.1 := by
  rw [propertiesOf_eq, List.any_map, List.any_filter]
  rfl

/-! ## Rows of other keys -/

/-- A change leaves alone the values of keys that it does not touch. -/
theorem get?_of_change {κ α : Type} [DecidableEq κ] {touched : κ → Prop} {t t' : Option (Table κ α)}
    {k own : κ} (h : Table.Change touched t t') (hOwn : touched own) (hk : ¬ touched k) :
    t'.map (·.get? k) = t.map (·.get? k) := by
  cases h with
  | create hNone => exact absurd hOwn (hNone own)
  | insert hKey hInsert =>
    have hNe : k ≠ _ := fun hEq => hk (hEq ▸ hKey)
    rw [Option.map_some, Option.map_some, Table.get?_insert? hInsert, if_neg hNe]
  | update t value hKey =>
    have hNe : k ≠ _ := fun hEq => hk (hEq ▸ hKey)
    rw [Option.map_some, Option.map_some, Table.get?_update, if_neg hNe]
  | @delete test t hKeys =>
    rw [Option.map_some, Option.map_some, Table.get?_deleteWhere]
    -- the test fails on every row of the key
    cases hGet : t.get? k with
    | none => rfl
    | some value =>
      have hFails : test k value = false :=
        Bool.eq_false_iff.mpr fun hTest => hk (hKeys k value hTest)
      simp [hFails]

/-- A change leaves alone the entries of keys of which it touches no name, and their order. -/
theorem propertiesOf_of_change {touched : Key × String → Prop} {t t' : Option PropertyTable}
    (own : Key × String) (h : Table.Change touched t t') (hOwn : touched own)
    (hKey : ∀ name, ¬ touched (key, name)) :
    t'.map (Tables.propertiesOf · key) = t.map (Tables.propertiesOf · key) := by
  have hOther : ∀ k, touched k → k.1 ≠ key := fun k hk hEq => hKey k.2 (hEq ▸ hk)
  cases h with
  | create hNone => exact absurd hOwn (hNone own)
  | insert hTouched hInsert =>
    unfold Table.insert? at hInsert
    split at hInsert
    · cases hInsert
    · cases hInsert
      simp [Tables.propertiesOf, List.filterMap_append, hOther _ hTouched]
  | @update k t value hTouched =>
    simp only [Option.map_some, Tables.propertiesOf, Table.update, List.filterMap_map]
    congr 2
    funext row
    by_cases hRow : row.key = k
    · simp [Table.overwrite, hRow, hOther k hTouched]
    · simp [Table.overwrite, hRow]
  | @delete test t hKeys =>
    simp only [Option.map_some, propertiesOf_eq, Table.deleteWhere, List.filter_filter]
    congr 3
    funext row
    by_cases hRow : row.key.1 = key
    · have hFails : test row.key row.value = false :=
        Bool.eq_false_iff.mpr fun hTest => hOther _ (hKeys _ _ hTest) hRow
      simp [hFails]
    · simp [hRow]

end Entries

/-! ## Stores that look alike -/

namespace Tables

/-- What a part looks like; nothing can be seen while its table is missing. -/
def view (t : Tables) : (part : Part) → Option part.View
  | .lock key => t.locks.map (·.get? key)
  | .properties key => t.properties.map (propertiesOf · key)

/-- Tables that look alike in one part, and have the same guards. -/
structure Agree (part : Part) (t t' : Tables) : Prop where
  guards : t.guards = t'.guards
  view : t.view part = t'.view part

namespace Agree

variable {part : Part} {t t' t'' : Tables} {key : Key}

theorem refl (part : Part) (t : Tables) : Agree part t t := ⟨rfl, rfl⟩

theorem forbids_eq (h : Agree part t t') : t.forbids = t'.forbids := by
  funext table kind name?
  unfold forbids
  rw [h.guards]

theorem locks_cases (h : Agree (.lock key) t t') :
    (t.locks = none ∧ t'.locks = none) ∨ ∃ locks locks', t.locks = some locks ∧
      t'.locks = some locks' ∧ locks.get? key = locks'.get? key := by
  have hView := h.view
  unfold Tables.view at hView
  cases hLocks : t.locks <;> cases hLocks' : t'.locks <;> simp_all

theorem properties_cases (h : Agree (.properties key) t t') :
    (t.properties = none ∧ t'.properties = none) ∨ ∃ properties properties',
      t.properties = some properties ∧ t'.properties = some properties' ∧
      propertiesOf properties key = propertiesOf properties' key := by
  have hView := h.view
  unfold Tables.view at hView
  cases hProperties : t.properties <;> cases hProperties' : t'.properties <;> simp_all

end Agree

/-- Two stores have answered alike, and look alike in one part afterwards. -/
inductive Alike {α : Type} (part : Part) : Except Fault (α × Tables) → Except Fault (α × Tables) → Prop
  | refused (fault : Fault) : Alike part (.error fault) (.error fault)
  | done (result : α) {t t' : Tables} (hAgree : Agree part t t') :
      Alike part (.ok (result, t)) (.ok (result, t'))

theorem Alike.map {α β : Type} {part : Part} {x y : Except Fault (α × Tables)} (h : Alike part x y)
    (f : α → β) : Alike part (x.map fun r => (f r.1, r.2)) (y.map fun r => (f r.1, r.2)) := by
  cases h with
  | refused fault => exact .refused fault
  | done result hAgree => exact .done (f result) hAgree

variable {t t' : Tables} {key : Key}

/-! ### Statements about the lock of a key -/

theorem alike_insertLock (h : Agree (.lock key) t t') (lock : Lock) :
    Alike (.lock key) (t.insertLock key lock) (t'.insertLock key lock) := by
  rcases h.locks_cases with ⟨hNone, hNone'⟩ | ⟨locks, locks', hLocks, hLocks', hGet⟩
  · simp only [insertLock, hNone, hNone']
    exact .refused _
  · simp only [insertLock, hLocks, hLocks', h.forbids_eq]
    split
    · exact .refused _
    · -- both tables have the key, or none of them has
      have hThere : locks.insert? key lock = none ↔ locks'.insert? key lock = none := by
        rw [Table.insert?_eq_none_iff, Table.insert?_eq_none_iff, hGet]
      cases hInsert : locks.insert? key lock with
      | none =>
        rw [hThere.mp hInsert]
        exact .refused _
      | some after =>
        cases hInsert' : locks'.insert? key lock with
        | none =>
          rw [hThere.mpr hInsert'] at hInsert
          cases hInsert
        | some after' =>
          refine .done () ⟨h.guards, ?_⟩
          show some (after.get? key) = some (after'.get? key)
          rw [Table.get?_insert? hInsert, Table.get?_insert? hInsert', if_pos rfl, if_pos rfl]

theorem alike_updateLock (h : Agree (.lock key) t t') (lock : Lock) :
    Alike (.lock key) (t.updateLock key lock) (t'.updateLock key lock) := by
  rcases h.locks_cases with ⟨hNone, hNone'⟩ | ⟨locks, locks', hLocks, hLocks', hGet⟩
  · simp only [updateLock, hNone, hNone']
    exact .refused _
  · simp only [updateLock, hLocks, hLocks', h.forbids_eq, Table.contains_eq, hGet]
    split
    · exact .refused _
    · refine .done () ⟨h.guards, ?_⟩
      show some ((locks.update key lock).get? key) = some ((locks'.update key lock).get? key)
      rw [Table.get?_update, Table.get?_update, hGet]

theorem alike_deleteLockWhere (h : Agree (.lock key) t t') (test : Lock → Bool) :
    Alike (.lock key) (t.deleteLockWhere key test) (t'.deleteLockWhere key test) := by
  rcases h.locks_cases with ⟨hNone, hNone'⟩ | ⟨locks, locks', hLocks, hLocks', hGet⟩
  · simp only [deleteLockWhere, hNone, hNone']
    exact .refused _
  · simp only [deleteLockWhere, hLocks, hLocks', h.forbids_eq, Table.anyWhere_key, hGet]
    split
    · exact .refused _
    · refine .done _ ⟨h.guards, ?_⟩
      show some (Table.get? _ key) = some (Table.get? _ key)
      rw [Table.get?_deleteWhere, Table.get?_deleteWhere, hGet]

/-! ### Statements about the properties of a key -/

theorem alike_insertProperty (h : Agree (.properties key) t t') (name value : String) :
    Alike (.properties key) (t.insertProperty key name value) (t'.insertProperty key name value) := by
  rcases h.properties_cases with ⟨hNone, hNone'⟩ |
    ⟨properties, properties', hProperties, hProperties', hView⟩
  · simp only [insertProperty, hNone, hNone']
    exact .refused _
  · simp only [insertProperty, hProperties, hProperties', h.forbids_eq]
    split
    · exact .refused _
    · have hThere : properties.insert? (key, name) value = none ↔
          properties'.insert? (key, name) value = none := by
        rw [Table.insert?_eq_none_iff, Table.insert?_eq_none_iff, get?_eq_lookup, get?_eq_lookup,
          hView]
      cases hInsert : properties.insert? (key, name) value with
      | none =>
        rw [hThere.mp hInsert]
        exact .refused _
      | some after =>
        cases hInsert' : properties'.insert? (key, name) value with
        | none =>
          rw [hThere.mpr hInsert'] at hInsert
          cases hInsert
        | some after' =>
          refine .done () ⟨h.guards, ?_⟩
          show some (propertiesOf after key) = some (propertiesOf after' key)
          rw [propertiesOf_insert? hInsert, propertiesOf_insert? hInsert', hView]

theorem alike_updateProperty (h : Agree (.properties key) t t') (name value : String) :
    Alike (.properties key) (t.updateProperty key name value) (t'.updateProperty key name value) := by
  rcases h.properties_cases with ⟨hNone, hNone'⟩ |
    ⟨properties, properties', hProperties, hProperties', hView⟩
  · simp only [updateProperty, hNone, hNone']
    exact .refused _
  · simp only [updateProperty, hProperties, hProperties', h.forbids_eq, Table.contains_eq,
      get?_eq_lookup, hView]
    split
    · exact .refused _
    · refine .done () ⟨h.guards, ?_⟩
      show some (propertiesOf _ key) = some (propertiesOf _ key)
      rw [propertiesOf_update, propertiesOf_update, hView]

theorem alike_deletePropertiesWhere (h : Agree (.properties key) t t') (test : String → Bool) :
    Alike (.properties key) (t.deletePropertiesWhere key test) (t'.deletePropertiesWhere key test) := by
  rcases h.properties_cases with ⟨hNone, hNone'⟩ |
    ⟨properties, properties', hProperties, hProperties', hView⟩
  · simp only [deletePropertiesWhere, hNone, hNone']
    exact .refused _
  · -- a guard is asked about the names of the key only
    simp only [deletePropertiesWhere, hProperties, hProperties', h.forbids_eq, Bool.and_assoc,
      anyWhere_properties properties key fun name => test name && t'.forbids .properties .delete name,
      anyWhere_properties properties' key fun name => test name && t'.forbids .properties .delete name,
      hView]
    split
    · exact .refused _
    · refine .done () ⟨h.guards, ?_⟩
      show some (propertiesOf _ key) = some (propertiesOf _ key)
      rw [propertiesOf_deleteWhere, propertiesOf_deleteWhere, hView]

/-! ### All statements -/

/-- A statement is answered alike by tables that agree on its part, which they still do
afterwards. -/
theorem execute_alike {st : Statement} {part : Part} (hPart : st.part? = some part)
    (h : Agree part t t') : Alike part (t.execute st) (t'.execute st) := by
  cases st with
  | selectLock key =>
    cases hPart
    rcases h.locks_cases with ⟨hNone, hNone'⟩ | ⟨locks, locks', hLocks, hLocks', hGet⟩
    · simp only [execute, hNone, hNone']
      exact .refused _
    · simp only [execute, hLocks, hLocks', hGet]
      exact .done _ h
  | insertLock key lock =>
    cases hPart
    exact alike_insertLock h lock
  | updateLock key lock =>
    cases hPart
    exact alike_updateLock h lock
  | deleteLock key =>
    cases hPart
    exact (alike_deleteLockWhere h fun _ => true).map fun _ => ()
  | deleteExpiredLock key now =>
    cases hPart
    exact alike_deleteLockWhere h _
  | selectProperties key =>
    cases hPart
    rcases h.properties_cases with ⟨hNone, hNone'⟩ |
      ⟨properties, properties', hProperties, hProperties', hView⟩
    · simp only [execute, hNone, hNone']
      exact .refused _
    · simp only [execute, hProperties, hProperties', hView]
      exact .done _ h
  | selectProperty key name =>
    cases hPart
    rcases h.properties_cases with ⟨hNone, hNone'⟩ |
      ⟨properties, properties', hProperties, hProperties', hView⟩
    · simp only [execute, hNone, hNone']
      exact .refused _
    · simp only [execute, hProperties, hProperties', get?_eq_lookup, hView]
      exact .done _ h
  | insertProperty key name value =>
    cases hPart
    exact alike_insertProperty h name value
  | updateProperty key name value =>
    cases hPart
    exact alike_updateProperty h name value
  | deleteProperty key name =>
    cases hPart
    exact alike_deletePropertiesWhere h (· = name)
  | deleteProperties key =>
    cases hPart
    exact alike_deletePropertiesWhere h fun _ => true
  | _ => cases hPart

/-- A statement leaves every other part as it was. -/
theorem Executed.agree {st : Statement} {part other : Part} (h : Executed st t t')
    (hPart : st.part? = some part) (hOther : other ≠ part) : Agree other t t' := by
  refine ⟨h.guards.symm, ?_⟩
  cases other with
  | lock key =>
    rcases h.locks with hSame | ⟨hTable, hChange⟩
    · simp only [view, hSame]
    · -- a statement about the locks is about the lock of some key
      cases part with
      | lock own =>
        exact (get?_of_change hChange hPart fun hk =>
          hOther (Option.some.inj (hk.symm.trans hPart))).symm
      | properties own => cases st <;> simp_all [Statement.table?, Statement.part?]
  | properties key =>
    -- a statement about a lock does not touch the table, one about another key none of the entries
    rcases h.properties with hSame | ⟨hTable, hChange⟩
    · simp only [view, hSame]
    · cases part with
      | lock own => cases st <;> simp_all [Statement.table?, Statement.part?]
      | properties own =>
        exact (propertiesOf_of_change (own, "") hChange hPart fun _ hk =>
          hOther (Option.some.inj (hk.symm.trans hPart))).symm

end Tables

/-- Stores that look alike in one part, and are both open or both closed. -/
structure Agree (part : Part) (s s' : Store) : Prop where
  closed : s.closed = s'.closed
  tables : s.tables.Agree part s'.tables

namespace Agree

variable {part : Part} {s s' s'' : Store}

theorem refl (part : Part) (s : Store) : Agree part s s := ⟨rfl, .refl part s.tables⟩

theorem symm (h : Agree part s s') : Agree part s' s :=
  ⟨h.closed.symm, h.tables.guards.symm, h.tables.view.symm⟩

theorem trans (h : Agree part s s') (h' : Agree part s' s'') : Agree part s s'' :=
  ⟨h.closed.trans h'.closed, h.tables.guards.trans h'.tables.guards,
    h.tables.view.trans h'.tables.view⟩

/-- The lock of a key is seen in its part. -/
theorem lock?_eq {key : Key} (h : Agree (.lock key) s s') : s.lock? key = s'.lock? key := by
  rcases h.tables.locks_cases with ⟨hNone, hNone'⟩ | ⟨locks, locks', hLocks, hLocks', hGet⟩
  · simp only [lock?, hNone, hNone']
  · simp only [lock?, hLocks, hLocks', Option.bind_some, hGet]

theorem property?_eq {key : Key} (h : Agree (.properties key) s s') :
    s.property? key = s'.property? key := by
  funext name
  rcases h.tables.properties_cases with ⟨hNone, hNone'⟩ |
    ⟨properties, properties', hProperties, hProperties', hView⟩
  · simp only [property?, hNone, hNone', Option.bind_none]
  · rw [property?_of_table hProperties, property?_of_table hProperties', get?_eq_lookup,
      get?_eq_lookup, hView]

end Agree

section Calls

variable {part other : Part} {s s' : Store}

/-- A statement is answered alike by stores that agree on its part, and they still agree on it. -/
theorem execute_alike {st : Statement} (hPart : st.part? = some part) (h : Agree part s s') :
    (execute st s).1 = (execute st s').1 ∧ Agree part (execute st s).2 (execute st s').2 := by
  unfold execute
  rw [h.closed]
  split
  · exact ⟨rfl, h⟩
  · have hAlike := Tables.execute_alike hPart h.tables
    revert hAlike
    generalize s.tables.execute st = x
    generalize s'.tables.execute st = y
    intro hAlike
    cases hAlike with
    | refused fault => exact ⟨rfl, h⟩
    | done result hAgree => exact ⟨rfl, rfl, hAgree⟩

/-- A statement leaves every other part as it was. -/
theorem execute_other {st : Statement} (hPart : st.part? = some part) (hOther : other ≠ part)
    (s : Store) : Agree other s (execute st s).2 := by
  obtain ⟨hClosed, hTables⟩ := execute_keeps st s
  exact ⟨hClosed.symm, hTables.agree hPart hOther⟩

/-- All statements of a call are about the part that the call is about. -/
theorem asks_part (call : RecordCall) : call.script.run.Asks (·.part? = some call.part) := by
  cases call with
  | getProperties key => exact Asks.attempt_bind (RecordCall.asks_statement rfl) fun _ => trivial
  | addProperties key properties => exact RecordCall.asks_addAll (fun _ _ => rfl) _
  | updateProperties key properties => exact RecordCall.asks_updateAll (fun _ _ => rfl) _
  | deleteProperties key names => exact RecordCall.asks_deleteAll (fun _ => rfl) _
  | _ => exact RecordCall.asks_statement rfl

theorem perform_alike {call : RecordCall} (hPart : call.part = part) (h : Agree part s s') :
    (s.perform call).1 = (s'.perform call).1 ∧ Agree part (s.perform call).2 (s'.perform call).2 :=
  (asks_part call).run_alike (fun _ _ _ hSt => execute_alike (hPart ▸ hSt)) h

theorem perform_other {call : RecordCall} (hOther : other ≠ call.part) (s : Store) :
    Agree other s (s.perform call).2 :=
  (asks_part call).run_keeps
    (fun _ s₁ hSt hAgree => hAgree.trans (execute_other hSt hOther s₁)) (.refl other s)

end Calls

end Store

end Latch
