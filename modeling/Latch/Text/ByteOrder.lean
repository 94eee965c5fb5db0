/-!
# Byte order

Names are ordered by their UTF-8 bytes, compared from the first byte on. `inOrder` sorts by a name;
the order is total, and two names that come before each other are equal, so the result depends only
on what is sorted.
-/

namespace Latch.ByteOrder

def bytes (s : String) : List UInt8 := s.toByteArray.data.toList

/-- `s` is `t` or comes before it. -/
def le (s t : String) : Bool := decide (bytes s ≤ bytes t)

def inOrder {α : Type} (name : α → String) (items : List α) : List α :=
  items.mergeSort fun a b => le (name a) (name b)

theorem bytes_inj {s t : String} (h : bytes s = bytes t) : s = t := by
  apply String.toByteArray_inj.mp
  have hData : s.toByteArray.data = t.toByteArray.data := Array.toList_inj.mp h
  exact ByteArray.ext hData

theorem le_trans {s t u : String} (hst : le s t) (htu : le t u) : le s u := by
  simp only [le, decide_eq_true_eq] at *
  exact List.le_trans hst htu

theorem le_total (s t : String) : le s t || le t s := by
  simp only [le, Bool.or_eq_true, decide_eq_true_eq]
  exact List.le_total _ _

theorem le_antisymm {s t : String} (hst : le s t) (hts : le t s) : s = t := by
  simp only [le, decide_eq_true_eq] at *
  exact bytes_inj (List.le_antisymm hst hts)

theorem perm_inOrder {α : Type} (name : α → String) (items : List α) :
    (inOrder name items).Perm items :=
  List.mergeSort_perm _ _

theorem pairwise_inOrder {α : Type} (name : α → String) (items : List α) :
    (inOrder name items).Pairwise fun a b => le (name a) (name b) := by
  apply List.pairwise_mergeSort
  · exact fun _ _ _ hab hbc => le_trans hab hbc
  · exact fun a b => le_total (name a) (name b)

end Latch.ByteOrder
