import Latch.Json.Lexeme
import Mathlib.Data.List.TakeWhile

/-!
# What stands around a value

Between the parts of a JSON text there may be spaces. A number has no end of its own: it ends where what
follows could not be more of it.

* `Json.Spaces` — a text of spaces as JSON has them;
* `Json.Ends` — what follows is no more of a number.

Main results:

* `Json.dropSpace_append` — spaces are dropped, up to a character that is none;
* `Json.Spaces.ends` — spaces end a number.
-/

namespace Latch.Json

variable {cs rest space : List Char}

def Spaces (cs : List Char) : Prop := ∀ c ∈ cs, isSpace c = true

/-- What follows is no more of a number: no digit, point or exponent. -/
def Ends (rest : List Char) : Prop :=
  ∀ c ∈ rest.head?, Decimal.isDigit c = false ∧ c ≠ '.' ∧ Number.isExponentMark c = false

theorem spaces_nil : Spaces [] := by
  intro c hc
  cases hc

theorem spaces_blank : Spaces [' '] := by
  intro c hc
  rw [List.mem_singleton.mp hc]
  rfl

theorem Spaces.append (hSpace : Spaces space) (hMore : Spaces cs) : Spaces (space ++ cs) :=
  fun c hc => (List.mem_append.mp hc).elim (hSpace c) (hMore c)

theorem ends_cons {c : Char} (hDigit : Decimal.isDigit c = false) (hPoint : c ≠ '.')
    (hMark : Number.isExponentMark c = false) : Ends (c :: rest) := by
  intro d hd
  cases hd
  exact ⟨hDigit, hPoint, hMark⟩

/-- Spaces end a number, and so does what ends it without them. -/
theorem Spaces.ends (hSpace : Spaces space) (hEnds : Ends rest) : Ends (space ++ rest) := by
  cases space with
  | nil => exact hEnds
  | cons c more =>
    intro d hd
    cases hd
    have hSpaceChar := hSpace c List.mem_cons_self
    simp only [isSpace, Bool.or_eq_true, decide_eq_true_eq] at hSpaceChar
    obtain ((rfl | rfl) | rfl) | rfl := hSpaceChar <;> decide

/-- Spaces are dropped, up to a character that is none. -/
theorem dropSpace_append {c : Char} (hSpace : Spaces space) (hChar : isSpace c = false) :
    dropSpace (space ++ c :: rest) = c :: rest := by
  rw [dropSpace, List.dropWhile_append_of_pos hSpace]
  exact List.dropWhile_cons_of_neg (by simp [hChar])

theorem dropSpace_of_spaces (hSpace : Spaces space) : dropSpace space = [] :=
  List.dropWhile_eq_nil_iff.mpr hSpace

/-- More spaces in front make no difference. -/
theorem dropSpace_spaces (hSpace : Spaces space) : dropSpace (space ++ rest) = dropSpace rest := by
  rw [dropSpace, List.dropWhile_append_of_pos hSpace, dropSpace]

end Latch.Json
