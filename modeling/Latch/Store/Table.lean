/-!
# Tables

A table is a list of rows. A row has an identifier of its own, which nobody reads back, a key, and a
value. No key has two rows, so a table is a finite map from keys to values; `Table.get?` is that map.

Main results:

* `Table.get?_eq_some_iff` — the map is the set of rows;
* `Table.get?_insert?`, `Table.get?_update`, `Table.get?_deleteWhere` — what the operations do to it.
-/

namespace Latch.Store

structure Row (κ α : Type) where
  id : Nat
  key : κ
  value : α
deriving DecidableEq, Repr

structure Table (κ α : Type) where
  rows : List (Row κ α)
  nextId : Nat
  nodup : (rows.map Row.key).Nodup
deriving DecidableEq, Repr

namespace Table

variable {κ α : Type} [DecidableEq κ]

def empty : Table κ α := ⟨[], 0, List.nodup_nil⟩

def get? (t : Table κ α) (key : κ) : Option α := (t.rows.find? (·.key = key)).map Row.value

def contains (t : Table κ α) (key : κ) : Bool := t.rows.any (·.key = key)

theorem nodup_append {t : Table κ α} {key : κ} (value : α) (h : ¬ t.contains key = true) :
    ((t.rows ++ [(⟨t.nextId, key, value⟩ : Row κ α)]).map Row.key).Nodup := by
  have hNew : ∀ row ∈ t.rows, row.key ≠ key := by simpa [contains] using h
  simp only [List.map_append, List.map_cons, List.map_nil, List.nodup_append]
  refine ⟨t.nodup, by simp, ?_⟩
  simpa using hNew

/-- Adds a row; `none` if the key is there already. -/
def insert? (t : Table κ α) (key : κ) (value : α) : Option (Table κ α) :=
  if h : t.contains key then none
  else some ⟨t.rows ++ [⟨t.nextId, key, value⟩], t.nextId + 1, nodup_append value h⟩

/-- A row with another value if it has the key. -/
def overwrite (key : κ) (value : α) (row : Row κ α) : Row κ α :=
  if row.key = key then { row with value } else row

theorem key_overwrite (key : κ) (value : α) (row : Row κ α) :
    (overwrite key value row).key = row.key := by
  unfold overwrite
  split <;> rfl

/-- Overwrites the value of a key; a key that is not there stays so. -/
def update (t : Table κ α) (key : κ) (value : α) : Table κ α :=
  ⟨t.rows.map (overwrite key value), t.nextId, by
    have hKeys : Row.key ∘ overwrite key value = Row.key :=
      funext (key_overwrite (α := α) key value)
    simpa [hKeys] using t.nodup⟩

/-- Removes the rows that pass a test. -/
def deleteWhere (t : Table κ α) (test : κ → α → Bool) : Table κ α :=
  ⟨t.rows.filter fun row => !test row.key row.value, t.nextId,
    t.nodup.sublist (List.filter_sublist.map _)⟩

/-- Whether a row passes a test. -/
def anyWhere (t : Table κ α) (test : κ → α → Bool) : Bool :=
  t.rows.any fun row => test row.key row.value

/-! ## The map of a table -/

omit [DecidableEq κ] in
theorem eq_of_key_eq (t : Table κ α) {a b : Row κ α} (ha : a ∈ t.rows) (hb : b ∈ t.rows)
    (hKey : a.key = b.key) : a = b := by
  have hPairs : t.rows.Pairwise fun a b => a.key ≠ b.key := List.pairwise_map.mp t.nodup
  have hEq : ∀ ⦃x⦄, x ∈ t.rows → ∀ ⦃y⦄, y ∈ t.rows → x.key = y.key → x = y :=
    List.Pairwise.forall_of_forall_of_flip (R := fun x y => x.key = y.key → x = y)
      (fun _ _ _ => rfl) (hPairs.imp fun hNe h => absurd h hNe)
      (hPairs.imp fun hNe h => absurd h.symm hNe)
  exact hEq ha hb hKey

theorem get?_eq_some_iff {t : Table κ α} {key : κ} {value : α} :
    t.get? key = some value ↔ ∃ row ∈ t.rows, row.key = key ∧ row.value = value := by
  simp only [get?, Option.map_eq_some_iff]
  constructor
  · rintro ⟨row, hFind, rfl⟩
    exact ⟨row, List.mem_of_find?_eq_some hFind, by simpa using List.find?_some hFind, rfl⟩
  · rintro ⟨row, hMem, rfl, rfl⟩
    cases hFind : t.rows.find? (·.key = row.key) with
    | none => simpa using List.find?_eq_none.mp hFind row hMem
    | some found =>
      have hKey : found.key = row.key := by simpa using List.find?_some hFind
      rw [t.eq_of_key_eq (List.mem_of_find?_eq_some hFind) hMem hKey]
      exact ⟨row, rfl, rfl⟩

theorem contains_eq (t : Table κ α) (key : κ) : t.contains key = (t.get? key).isSome := by
  rw [Bool.eq_iff_iff, contains, get?, Option.isSome_map, List.find?_isSome, List.any_eq_true]

/-- A test of the value of one key asks no other row. -/
theorem anyWhere_key (t : Table κ α) (key : κ) (test : α → Bool) :
    (t.anyWhere fun k v => decide (k = key) && test v) = (t.get? key).any test := by
  rw [Bool.eq_iff_iff, Option.any_eq_true]
  simp only [anyWhere, List.any_eq_true, Bool.and_eq_true, decide_eq_true_eq, get?_eq_some_iff]
  constructor
  · rintro ⟨row, hMem, hKey, hTest⟩
    exact ⟨row.value, ⟨row, hMem, hKey, rfl⟩, hTest⟩
  · rintro ⟨_, ⟨row, hMem, hKey, rfl⟩, hTest⟩
    exact ⟨row, hMem, hKey, hTest⟩

theorem insert?_eq_none_iff {t : Table κ α} {key : κ} {value : α} :
    t.insert? key value = none ↔ (t.get? key).isSome = true := by
  rw [← contains_eq, insert?]
  split <;> simp_all

theorem get?_insert? {t t' : Table κ α} {key : κ} {value : α} (h : t.insert? key value = some t')
    (k : κ) : t'.get? k = if k = key then some value else t.get? k := by
  unfold insert? at h
  split at h
  · cases h
  · rename_i hNew
    rw [contains_eq, Bool.not_eq_true, Option.isSome_eq_false_iff, Option.isNone_iff_eq_none] at hNew
    cases h
    by_cases hk : k = key
    · subst hk
      rw [if_pos rfl, get?_eq_some_iff]
      exact ⟨_, List.mem_append_right _ (List.mem_singleton_self _), rfl, rfl⟩
    · have hk' : ¬ key = k := fun h => hk h.symm
      simp [get?, List.find?_append, hk, hk']

theorem get?_update (t : Table κ α) (key : κ) (value : α) (k : κ) :
    (t.update key value).get? k =
      if k = key then (t.get? k).map fun _ => value else t.get? k := by
  have hFind : (fun row : Row κ α => decide (row.key = k)) ∘ overwrite key value =
      fun row => decide (row.key = k) :=
    funext fun row => by simp [key_overwrite]
  simp only [get?, update, List.find?_map, hFind, Option.map_map]
  cases hRow : t.rows.find? (·.key = k) with
  | none => simp
  | some row =>
    have hKey : row.key = k := by simpa using List.find?_some hRow
    by_cases hk : k = key <;> simp [overwrite, hKey, hk]

theorem get?_deleteWhere (t : Table κ α) (test : κ → α → Bool) (k : κ) :
    (t.deleteWhere test).get? k = (t.get? k).filter fun v => !test k v := by
  apply Option.ext
  intro value
  simp only [get?_eq_some_iff, Option.filter_eq_some_iff, deleteWhere, List.mem_filter]
  constructor
  · rintro ⟨row, ⟨hMem, hTest⟩, rfl, rfl⟩
    exact ⟨⟨row, hMem, rfl, rfl⟩, hTest⟩
  · rintro ⟨⟨row, hMem, rfl, rfl⟩, hTest⟩
    exact ⟨row, ⟨hMem, hTest⟩, rfl, rfl⟩

end Table

end Latch.Store
