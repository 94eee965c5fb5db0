import Latch.Properties
import Mathlib.Data.List.Induction
import Mathlib.Logic.Function.Basic

/-!
# Maps written over

A map from names to values, and what entries that are written one after another make of it.

* `overlay` — a map after some entries have been written;
* `overridden` — a map in which the names of a property set have the values of the set;
* `Properties.overriddenBy` — the same for a property set in place of the map.

Main results:

* `overlay_cases`, `overlay_eq_lookup` — the last entry of a name decides, and a name without entries
  keeps its value;
* `overlay_eq_overridden` — writing all entries of a set, in whatever order, overrides the map;
* `overridden_overlay` — entries of the set that were written before make no difference;
* `overridden_overridden` — overriding by one set and then by another is overriding by one set.
-/

namespace Latch

variable {map : String → Option String} {entries : List (String × String)} {name value : String}

/-- A map after some entries have been written over it, one after another. -/
def overlay (map : String → Option String) (entries : List (String × String)) :
    String → Option String :=
  entries.foldl (fun map entry => Function.update map entry.1 (some entry.2)) map

theorem overlay_cons (map : String → Option String) (entry : String × String)
    (entries : List (String × String)) :
    overlay map (entry :: entries) =
      overlay (Function.update map entry.1 (some entry.2)) entries := rfl

theorem overlay_append (map : String → Option String) (entries more : List (String × String)) :
    overlay map (entries ++ more) = overlay (overlay map entries) more :=
  List.foldl_append

theorem overlay_concat (map : String → Option String) (entries : List (String × String))
    (entry : String × String) :
    overlay map (entries ++ [entry]) =
      Function.update (overlay map entries) entry.1 (some entry.2) :=
  overlay_append map entries [entry]

/-- The last entry of a name decides; a name without entries keeps its value. -/
theorem overlay_cases (map : String → Option String) (entries : List (String × String))
    (name : String) :
    ((∀ value, (name, value) ∉ entries) ∧ overlay map entries name = map name) ∨
      ∃ early value late, entries = early ++ (name, value) :: late ∧
        (∀ other, (name, other) ∉ late) ∧ overlay map entries name = some value := by
  -- from the end, because the last entry is the one that decides
  induction entries using List.reverseRecOn with
  | nil => exact Or.inl ⟨by simp, rfl⟩
  | append_singleton entries entry ih =>
    obtain ⟨last, text⟩ := entry
    rw [overlay_concat]
    by_cases hName : name = last
    · subst hName
      exact Or.inr ⟨entries, text, [], rfl, by simp, Function.update_self ..⟩
    · rw [Function.update_of_ne hName]
      -- an entry of another name decides nothing
      refine ih.imp ?_ ?_
      · rintro ⟨hNone, hSame⟩
        exact ⟨fun value => by simp [hNone, hName], hSame⟩
      · rintro ⟨early, value, late, rfl, hLate, hValue⟩
        exact ⟨early, value, late ++ [(last, text)], by simp, fun other => by simp [hLate, hName],
          hValue⟩

/-- The same as a look-up from the end. -/
theorem overlay_eq_lookup (map : String → Option String) (entries : List (String × String))
    (name : String) : overlay map entries name = (entries.reverse.lookup name).or (map name) := by
  induction entries using List.reverseRecOn with
  | nil => rfl
  | append_singleton entries entry ih =>
    rw [overlay_concat, List.reverse_append, List.reverse_singleton, List.singleton_append,
      List.lookup_cons]
    by_cases hName : name = entry.1
    · subst hName
      rw [Function.update_self, beq_self_eq_true]
      rfl
    · have hOther : (name == entry.1) = false := by simpa using hName
      rw [Function.update_of_ne hName, hOther, ih]

theorem overlay_of_not_mem (h : ∀ value, (name, value) ∉ entries) :
    overlay map entries name = map name := by
  rcases overlay_cases map entries name with ⟨-, hSame⟩ | ⟨early, value, late, rfl, -⟩
  · exact hSame
  · exact absurd (by simp) (h value)

/-- A name that is written has a value that was written. -/
theorem overlay_of_mem (h : (name, value) ∈ entries) :
    ∃ last, (name, last) ∈ entries ∧ overlay map entries name = some last := by
  rcases overlay_cases map entries name with ⟨hNone, -⟩ | ⟨early, last, late, rfl, -, hLast⟩
  · exact absurd h (hNone value)
  · exact ⟨last, by simp, hLast⟩

/-- A value is the old one or was written. -/
theorem overlay_origin (h : overlay map entries name = some value) :
    map name = some value ∨ (name, value) ∈ entries := by
  rcases overlay_cases map entries name with ⟨-, hSame⟩ | ⟨early, last, late, rfl, -, hLast⟩
  · exact Or.inl (hSame.symm.trans h)
  · cases hLast.symm.trans h
    exact Or.inr (by simp)

/-- No name disappears. -/
theorem overlay_ne_none (h : map name ≠ none) : overlay map entries name ≠ none := by
  rcases overlay_cases map entries name with ⟨-, hSame⟩ | ⟨early, last, late, rfl, -, hLast⟩
  · rwa [hSame]
  · rw [hLast]
    exact Option.some_ne_none last

/-! ## Overriding by a set -/

/-- A map in which the names of a property set have the values of the set. -/
def overridden (incoming : Properties) (map : String → Option String) : String → Option String :=
  fun name => (incoming.get? name).or (map name)

/-- Writing all entries of a set, in whatever order, overrides the map. -/
theorem overlay_eq_overridden {incoming : Properties}
    (h : ∀ name value, (name, value) ∈ entries ↔ incoming.get? name = some value) :
    overlay map entries = overridden incoming map := by
  funext name
  rcases overlay_cases map entries name with ⟨hNone, hSame⟩ | ⟨early, value, late, hSplit, -, hValue⟩
  · have hOutside : incoming.get? name = none :=
      Option.eq_none_iff_forall_not_mem.mpr fun value hGet => hNone value ((h name value).mpr hGet)
    rw [hSame, overridden, hOutside, Option.none_or]
  · have hInside : incoming.get? name = some value :=
      (h name value).mp (by rw [hSplit]; simp)
    rw [hValue, overridden, hInside, Option.some_or]

/-- The entries of a set in byte order are all its entries. -/
theorem overlay_inOrder (incoming : Properties) (map : String → Option String) :
    overlay map incoming.inOrder = overridden incoming map :=
  overlay_eq_overridden fun _ _ => Properties.mem_inOrder

theorem overridden_of_isEmpty {incoming : Properties} (h : incoming.isEmpty = true) :
    overridden incoming map = map := by
  funext name
  rw [overridden, Properties.get?_of_isEmpty h, Option.none_or]

/-- Entries of the set that were written before make no difference. -/
theorem overridden_overlay {incoming : Properties}
    (h : ∀ name value, (name, value) ∈ entries → incoming.get? name = some value) :
    overridden incoming (overlay map entries) = overridden incoming map := by
  funext name
  cases hGet : incoming.get? name with
  | some value => simp only [overridden, hGet, Option.some_or]
  | none =>
    -- the entries are those of the set, so they do not have the name either
    have hNone : ∀ value, (name, value) ∉ entries := fun value hMem => by
      cases hGet.symm.trans (h name value hMem)
    simp only [overridden, hGet, Option.none_or, overlay_of_not_mem hNone]

/-! ## Sets overridden by sets -/

namespace Properties

/-- A property set in which the names of another one have the values of that one. -/
def overriddenBy (p incoming : Properties) : Properties :=
  incoming.entries.foldl (fun p entry => p.insert entry.1 entry.2) p

theorem get?_insert (p : Properties) (name value : String) :
    (p.insert name value).get? = Function.update p.get? name (some value) := by
  funext other
  apply Option.ext
  intro text
  rw [get?_eq_some_iff]
  simp only [insert, put, List.mem_append, List.mem_filter, List.mem_singleton, Prod.mk.injEq]
  by_cases hName : other = name
  · subst hName
    simp [eq_comm]
  · simp [hName, get?_eq_some_iff]

/-- Inserting entries one after another writes them over the map. -/
theorem get?_foldl_insert (p : Properties) (entries : List (String × String)) :
    (entries.foldl (fun p entry => p.insert entry.1 entry.2) p).get? = overlay p.get? entries := by
  induction entries generalizing p with
  | nil => rfl
  | cons entry rest ih => rw [List.foldl_cons, ih, get?_insert, overlay_cons]

theorem get?_overriddenBy (p incoming : Properties) :
    (p.overriddenBy incoming).get? = overridden incoming p.get? := by
  rw [overriddenBy, get?_foldl_insert]
  exact overlay_eq_overridden fun _ _ => get?_eq_some_iff.symm

end Properties

/-- A map overridden twice is overridden by the second set over the first. -/
theorem overridden_overridden (p incoming : Properties) :
    overridden incoming (overridden p map) = overridden (p.overriddenBy incoming) map := by
  funext name
  simp only [overridden, Properties.get?_overriddenBy, Option.or_assoc]

theorem overridden_self (incoming : Properties) :
    overridden incoming (overridden incoming map) = overridden incoming map := by
  funext name
  simp only [overridden, ← Option.or_assoc, Option.or_self]

end Latch
