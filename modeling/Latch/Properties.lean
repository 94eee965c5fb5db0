import Latch.Text.ByteOrder

/-!
# Properties

A set of named texts. The entries may stand in any order, and no name occurs twice; what counts is
the map `Properties.get?`.

* `Properties.ofList` — collects pairs, where the last pair of a name wins;
* `Properties.inOrder` — the entries in byte order of their names;
* `PropertyDiff.compute` — splits a set by the names that another one has.

Main results:

* `Properties.get?_eq_some_iff` — the map is the set of entries;
* `Properties.get?_filter`, `Properties.mem_inOrder`, `Properties.entries_ofList` — the map of what is
  built from other sets.
-/

namespace Latch

structure Properties where
  entries : List (String × String)
  nodup : (entries.map Prod.fst).Nodup
deriving DecidableEq

namespace Properties

instance : EmptyCollection Properties := ⟨⟨[], List.nodup_nil⟩⟩

instance : Inhabited Properties := ⟨∅⟩

def get? (p : Properties) (name : String) : Option String := p.entries.lookup name

def contains (p : Properties) (name : String) : Bool := p.entries.any (·.1 == name)

def isEmpty (p : Properties) : Bool := p.entries.isEmpty

def size (p : Properties) : Nat := p.entries.length

def names (p : Properties) : List String := p.entries.map Prod.fst

def inOrder (p : Properties) : List (String × String) := ByteOrder.inOrder Prod.fst p.entries

/-! ## Building -/

/-- The pairs without those of one name, and with a pair of that name at the end. -/
def put (name value : String) (entries : List (String × String)) : List (String × String) :=
  entries.filter (fun entry => entry.1 ≠ name) ++ [(name, value)]

theorem nodup_put (name value : String) {entries : List (String × String)}
    (h : (entries.map Prod.fst).Nodup) : ((put name value entries).map Prod.fst).Nodup := by
  have hSub : ((entries.filter fun entry => entry.1 ≠ name).map Prod.fst).Nodup :=
    h.sublist (List.filter_sublist.map _)
  simp only [put, List.map_append, List.map_cons, List.map_nil, List.nodup_append]
  refine ⟨hSub, by simp, ?_⟩
  simp

def insert (p : Properties) (name value : String) : Properties :=
  ⟨put name value p.entries, nodup_put name value p.nodup⟩

def ofList (pairs : List (String × String)) : Properties :=
  pairs.foldl (fun p entry => p.insert entry.1 entry.2) ∅

/-- The entries that pass a test. -/
def filter (p : Properties) (keep : String → Bool) : Properties :=
  ⟨p.entries.filter fun entry => keep entry.1, p.nodup.sublist (List.filter_sublist.map _)⟩

/-! ## The map -/

theorem lookup_eq_some_iff {entries : List (String × String)}
    (h : (entries.map Prod.fst).Nodup) {name value : String} :
    entries.lookup name = some value ↔ (name, value) ∈ entries := by
  induction entries with
  | nil => simp
  | cons entry rest ih =>
    obtain ⟨first, text⟩ := entry
    rw [List.map_cons, List.nodup_cons] at h
    by_cases hName : name = first
    · subst hName
      -- the name does not occur again, so the first entry is the only one
      have hNew : (name, value) ∉ rest := fun hMem => h.1 (List.mem_map.mpr ⟨_, hMem, rfl⟩)
      simp [hNew, eq_comm]
    · have hOther : (name == first) = false := by simpa using hName
      simp [List.lookup_cons, hOther, hName, ih h.2]

theorem get?_eq_some_iff {p : Properties} {name value : String} :
    p.get? name = some value ↔ (name, value) ∈ p.entries :=
  lookup_eq_some_iff p.nodup

theorem get?_of_isEmpty {p : Properties} (h : p.isEmpty = true) (name : String) :
    p.get? name = none := by
  rw [get?, List.isEmpty_iff.mp h, List.lookup_nil]

theorem contains_eq (p : Properties) (name : String) : p.contains name = (p.get? name).isSome := by
  rw [Bool.eq_iff_iff, Option.isSome_iff_exists]
  simp only [contains, List.any_eq_true, beq_iff_eq, get?_eq_some_iff]
  constructor
  · rintro ⟨⟨first, text⟩, hMem, rfl⟩
    exact ⟨text, hMem⟩
  · rintro ⟨value, hMem⟩
    exact ⟨(name, value), hMem, rfl⟩

theorem get?_filter (p : Properties) (keep : String → Bool) (name : String) :
    (p.filter keep).get? name = if keep name then p.get? name else none := by
  apply Option.ext
  intro value
  rw [get?_eq_some_iff]
  by_cases hKeep : keep name = true
  · rw [if_pos hKeep, get?_eq_some_iff]
    simp [filter, hKeep]
  · rw [if_neg hKeep]
    simp [filter, hKeep]

theorem mem_inOrder {p : Properties} {name value : String} :
    (name, value) ∈ p.inOrder ↔ p.get? name = some value := by
  rw [get?_eq_some_iff]
  exact (ByteOrder.perm_inOrder Prod.fst p.entries).mem_iff

theorem nodup_inOrder (p : Properties) : (p.inOrder.map Prod.fst).Nodup :=
  ((ByteOrder.perm_inOrder Prod.fst p.entries).map Prod.fst).nodup_iff.mpr p.nodup

theorem inOrder_of_isEmpty {p : Properties} (h : p.isEmpty = true) : p.inOrder = [] := by
  have hEntries : p.entries = [] := List.isEmpty_iff.mp h
  rw [inOrder, hEntries]
  exact (ByteOrder.perm_inOrder Prod.fst []).eq_nil

theorem put_of_new {name value : String} {entries : List (String × String)}
    (h : name ∉ entries.map Prod.fst) : put name value entries = entries ++ [(name, value)] := by
  have hAll : entries.filter (fun entry => entry.1 ≠ name) = entries := by
    rw [List.filter_eq_self]
    intro entry hMem
    have hOther : entry.1 ≠ name := fun hName => h (List.mem_map.mpr ⟨entry, hMem, hName⟩)
    simpa using hOther
  rw [put, hAll]

/-- Pairs of different names are collected as they stand. -/
theorem entries_ofList {pairs : List (String × String)} (h : (pairs.map Prod.fst).Nodup) :
    (ofList pairs).entries = pairs := by
  have hFrom : ∀ (pairs : List (String × String)) (p : Properties),
      ((p.entries ++ pairs).map Prod.fst).Nodup →
      (pairs.foldl (fun p entry => p.insert entry.1 entry.2) p).entries = p.entries ++ pairs := by
    intro pairs
    induction pairs with
    | nil => simp
    | cons entry rest ih =>
      intro p hNodup
      have hNew : entry.1 ∉ p.entries.map Prod.fst := by
        rw [List.map_append, List.nodup_append] at hNodup
        exact fun hMem => hNodup.2.2 _ hMem _ (by simp) rfl
      have hEntries : (p.insert entry.1 entry.2).entries = p.entries ++ [entry] := put_of_new hNew
      rw [List.foldl_cons, ih _ (by rwa [hEntries, List.append_assoc]), hEntries, List.append_assoc]
      rfl
  exact hFrom pairs ∅ h

end Properties

/-- A set of properties split into names that are new and names that are there already. -/
structure PropertyDiff where
  toAdd : Properties
  toUpdate : Properties
deriving DecidableEq, Inhabited

namespace PropertyDiff

def compute (incoming existing : Properties) : PropertyDiff where
  toAdd := incoming.filter fun name => !existing.contains name
  toUpdate := incoming.filter existing.contains

def isEmpty (diff : PropertyDiff) : Bool := diff.toAdd.isEmpty && diff.toUpdate.isEmpty

/-- Nothing is split into nothing. -/
theorem compute_of_isEmpty {incoming : Properties} (h : incoming.isEmpty = true)
    (existing : Properties) : compute incoming existing = default := by
  have hEntries : incoming.entries = [] := List.isEmpty_iff.mp h
  simp only [compute, Properties.filter, hEntries, List.filter_nil]
  rfl

end PropertyDiff

end Latch
