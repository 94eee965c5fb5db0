import Latch.Text.Blank
import Mathlib.Data.List.DropRight

/-!
# Texts without blanks at their ends

Cutting from the front and then from the back leaves one text, which can be said without the cutting:
what is dropped is blank, and what is left neither starts nor ends with a blank.

* `Text.Trimmed` — a text is another one without the blanks at its ends.

Main results:

* `Text.trimmed_trim` — trimming finds such a text;
* `Text.Trimmed.trim_eq` — there is no other.
-/

namespace Latch.Text

variable {cs t front back : List Char}

/-- `t` is `cs` without the blanks at its ends. -/
structure Trimmed (cs t : List Char) : Prop where
  split : ∃ front back, cs = front ++ t ++ back ∧ (∀ c ∈ front, isBlank c = true) ∧
    ∀ c ∈ back, isBlank c = true
  first : ∀ c ∈ t.head?, isBlank c = false
  last : ∀ c ∈ t.getLast?, isBlank c = false

theorem trim_eq (cs : List Char) : trim cs = (cs.dropWhile isBlank).rdropWhile isBlank := rfl

/-- Blanks at the front are dropped, up to a character that is none. -/
theorem dropWhile_isBlank (hFront : ∀ c ∈ front, isBlank c = true)
    (hFirst : ∀ c ∈ t.head?, isBlank c = false) :
    (front ++ t).dropWhile isBlank = t := by
  rw [List.dropWhile_append_of_pos hFront]
  cases t with
  | nil => rfl
  | cons c rest => exact List.dropWhile_cons_of_neg (by simp [hFirst c rfl])

/-- The same from the back. -/
theorem rdropWhile_isBlank (hBack : ∀ c ∈ back, isBlank c = true)
    (hLast : ∀ c ∈ t.getLast?, isBlank c = false) :
    (t ++ back).rdropWhile isBlank = t := by
  have hFront : ∀ c ∈ back.reverse, isBlank c = true := by simpa using hBack
  have hFirst : ∀ c ∈ t.reverse.head?, isBlank c = false := by simpa using hLast
  have hReversed := dropWhile_isBlank hFront hFirst
  rw [List.rdropWhile, List.reverse_append, hReversed, List.reverse_reverse]

/-- **A text without blanks at its ends is the one that trimming finds.** -/
theorem Trimmed.trim_eq (h : Trimmed cs t) : trim cs = t := by
  obtain ⟨⟨front, back, rfl, hFront, hBack⟩, hFirst, hLast⟩ := h
  rw [Text.trim_eq, List.append_assoc]
  cases t with
  | nil =>
    -- everything is blank, and dropped from the front already
    have hAll : ∀ c ∈ front ++ back, isBlank c = true := fun c hc =>
      (List.mem_append.mp hc).elim (hFront c) (hBack c)
    rw [List.nil_append, List.dropWhile_eq_nil_iff.mpr hAll]
    rfl
  | cons c rest =>
    rw [dropWhile_isBlank hFront (by simpa using hFirst), rdropWhile_isBlank hBack hLast]

/-- **Trimming finds a text without blanks at its ends.** -/
theorem trimmed_trim (cs : List Char) : Trimmed cs (trim cs) := by
  have hFront : ∀ c ∈ cs.takeWhile isBlank, isBlank c = true := fun c hc => List.mem_takeWhile_imp hc
  have hBack : ∀ c ∈ (cs.dropWhile isBlank).rtakeWhile isBlank, isBlank c = true :=
    fun c hc => List.mem_rtakeWhile_imp hc
  refine ⟨⟨_, _, ?_, hFront, hBack⟩, ?_, ?_⟩
  · rw [trim_eq, List.append_assoc, List.rdropWhile_append_rtakeWhile,
      List.takeWhile_append_dropWhile]
  · intro c hc
    -- what is left after both cuts begins as what was left after the first one
    obtain ⟨rest, hRest⟩ : trim cs <+: cs.dropWhile isBlank := List.rdropWhile_prefix isBlank _
    have hHead : (cs.dropWhile isBlank).head? = some c := by
      rw [← hRest, List.head?_append, Option.mem_def.mp hc, Option.some_or]
    have hNot := List.head?_dropWhile_not isBlank cs
    rwa [hHead] at hNot
  · intro c hc
    have hNil : trim cs ≠ [] := by
      intro hNil
      rw [hNil] at hc
      cases hc
    have hNot : ¬ isBlank ((trim cs).getLast hNil) = true := List.rdropWhile_last_not isBlank _ hNil
    rw [List.getLast?_eq_some_getLast hNil] at hc
    cases hc
    exact Bool.eq_false_iff.mpr hNot

end Latch.Text
