import Latch.Proofs.Text.Decimal
import Latch.Toml.Line

/-!
# Written numbers are read back

A number is written with its digits only, and its line ends after them. Dates, times of day and
fractional numbers also start with digits, so a reader has to go past the digits before it knows
what it reads.

* `DigitLine` — digits, and then the end of a line.

Main results:

* `Number.valueOf_nat` — the value of the digits of a number is the number;
* `DigitLine.not_moment`, `Number.float?_nat` — digits alone are no date, no time and no fractional
  number;
* `scalar?_nat` — a number is read back.
-/

namespace Latch

namespace Toml

open Decimal (isDigit nat isDigit_of_mem_nat ne_of_isDigit)

/-! ## Whole numbers -/

namespace Number

theorem valueOf_append_digit (base : Nat) (digits : List Char) {digit : Nat} (hDigit : digit < 10) :
    valueOf base (digits ++ [digit.digitChar]) = valueOf base digits * base + digit := by
  have hValue : Hex.value? digit.digitChar = some digit := by
    revert digit
    decide
  simp [valueOf, List.foldl_append, hValue]

theorem valueOf_nat (n : Nat) : valueOf 10 (nat n) = n := by
  induction n using Nat.strongRecOn with
  | ind n ih =>
    rw [nat, Nat.toDigits_eq_if (by decide)]
    split
    case isTrue hSmall =>
      rw [← List.nil_append [_], valueOf_append_digit 10 [] hSmall]
      simp [valueOf]
    case isFalse hLarge =>
      have hFront : valueOf 10 (Nat.toDigits 10 (n / 10)) = n / 10 := ih (n / 10) (by omega)
      rw [valueOf_append_digit 10 _ (Nat.mod_lt _ (by decide)), hFront]
      omega

theorem more?_digits {digits : List Char} (hDigits : ∀ c ∈ digits, isDigit c = true)
    (rest : List Char) :
    more? isDigit (digits ++ '\n' :: rest) = some (digits, '\n' :: rest) := by
  induction digits with
  | nil => simp [more?, isDigit]
  | cons c digits ih =>
    obtain ⟨hHead, hTail⟩ := List.forall_mem_cons.mp hDigits
    have hNone : c ≠ '_' := ne_of_isDigit hHead (by decide)
    rw [List.cons_append, more?, if_pos hHead, ih hTail]
    · rfl
    · simp [hNone]
    · simp [hNone]

/-- Digits before the end of the line are the whole part of a number, unless they start with a
zero. -/
theorem whole?_digits {first : Char} {more : List Char} (hFirst : isDigit first = true)
    (hMore : ∀ c ∈ more, isDigit c = true) (hZero : first ≠ '0') (rest : List Char) :
    whole? (first :: more ++ '\n' :: rest) = some (first :: more, '\n' :: rest) := by
  rw [List.cons_append, whole?, digits?, if_pos hFirst, more?_digits hMore]
  · rfl
  · simpa using hZero

theorem whole?_nat (n : Nat) (rest : List Char) :
    whole? (nat n ++ '\n' :: rest) = some (nat n, '\n' :: rest) := by
  obtain ⟨first, more, hNat, hZero⟩ := Decimal.nat_eq_cons n
  by_cases hStart : first = '0'
  · rw [hZero hStart]
    rfl
  · have hDigits : ∀ c ∈ first :: more, isDigit c = true := fun c hMem =>
      isDigit_of_mem_nat (hNat ▸ hMem)
    obtain ⟨hFirst, hMore⟩ := List.forall_mem_cons.mp hDigits
    rw [hNat]
    exact whole?_digits hFirst hMore hStart rest

/-- The line of a number starts with a digit. -/
theorem nat_line_ne {mark : Char} (hMark : isDigit mark = false) (n : Nat) (rest more : List Char) :
    nat n ++ '\n' :: rest ≠ mark :: more := by
  obtain ⟨first, digits, hNat, -⟩ := Decimal.nat_eq_cons n
  have hFirst : isDigit first = true := isDigit_of_mem_nat (hNat ▸ List.mem_cons_self)
  rw [hNat]
  intro hLine
  injection hLine with hHead
  exact ne_of_isDigit hFirst hMark hHead

theorem sign_nat (n : Nat) (rest : List Char) :
    sign (nat n ++ '\n' :: rest) = (false, nat n ++ '\n' :: rest) := by
  rw [sign] <;> exact nat_line_ne (by decide) n rest

theorem float?_nat (n : Nat) (rest : List Char) : float? (nat n ++ '\n' :: rest) = none := by
  have hNamed : named? (nat n ++ '\n' :: rest) = none := by
    rw [named?] <;> exact fun more => nat_line_ne (by decide) n rest _
  -- neither a fraction nor an exponent follows the digits
  have hTail : tail? ('\n' :: rest) = none := rfl
  simp [float?, sign_nat, hNamed, whole?_nat, hTail]

theorem integer?_nat {n : Nat} (hFits : n ≤ 9223372036854775807) (rest : List Char) :
    integer? (nat n ++ '\n' :: rest) = some ((n : Int), '\n' :: rest) := by
  -- a zero is followed by the line end and not by the letter of a base
  have hBase : ∀ letter more, nat n ++ '\n' :: rest = '0' :: letter :: more → letter = '\n' := by
    intro letter more hLine
    obtain ⟨first, digits, hNat, hZero⟩ := Decimal.nat_eq_cons n
    have hStart : first = '0' := by
      rw [hNat] at hLine
      injection hLine
    rw [hZero hStart] at hLine
    injection hLine with _ hLine
    injection hLine with hLetter
    exact hLetter.symm
  have hFitting : fitting? (n : Int) = some (n : Int) := if_pos (by omega)
  rw [integer?]
  · simp [decimal?, sign_nat, whole?_nat, valueOf_nat, hFitting]
  · exact fun more hLine => absurd (hBase 'x' more hLine) (by decide)
  · exact fun more hLine => absurd (hBase 'o' more hLine) (by decide)
  · exact fun more hLine => absurd (hBase 'b' more hLine) (by decide)

end Number

/-! ## Dates and times -/

/-- Digits, and then the end of a line. -/
def DigitLine (cs : List Char) : Prop :=
  ∃ digits rest, (∀ c ∈ digits, isDigit c = true) ∧ cs = digits ++ '\n' :: rest

namespace DigitLine

open Moment

variable {cs rest : List Char} {n : Nat}

theorem of_nat (n : Nat) (rest : List Char) : DigitLine (nat n ++ '\n' :: rest) :=
  ⟨nat n, rest, fun _ => isDigit_of_mem_nat, rfl⟩

theorem twoDigits? (h : DigitLine cs) (hRead : Moment.twoDigits? cs = some (n, rest)) :
    DigitLine rest := by
  obtain ⟨digits, more, hDigits, rfl⟩ := h
  -- the end of the line is no digit, so two digits are only there if they belong to the line
  match digits with
  | [] =>
    cases more <;> simp [Moment.twoDigits?, isDigit] at hRead
  | [a] => simp [Moment.twoDigits?, isDigit] at hRead
  | a :: b :: digits =>
    simp only [List.cons_append, Moment.twoDigits?] at hRead
    split at hRead
    · cases hRead
      exact ⟨digits, more, fun c hc => hDigits c (by simp [hc]), rfl⟩
    · cases hRead

theorem expect? (h : DigitLine cs) {mark : Char} (hDigit : isDigit mark = false) (hLine : mark ≠ '\n') :
    Moment.expect? mark cs = none := by
  obtain ⟨digits, more, hDigits, rfl⟩ := h
  cases digits with
  | nil => exact if_neg hLine.symm
  | cons c digits => exact if_neg (ne_of_isDigit (hDigits c List.mem_cons_self) hDigit)

theorem date? (h : DigitLine cs) : Moment.date? cs = none := by
  -- a dash follows four digits of a date, and none follows here
  have hDash : isDigit '-' = false := by decide
  unfold Moment.date? Moment.fourDigits?
  cases hHigh : Moment.twoDigits? cs with
  | none => rfl
  | some high =>
    have hAfter := h.twoDigits? hHigh
    cases hLow : Moment.twoDigits? high.2 with
    | none => simp [hLow]
    | some low => simp [hLow, (hAfter.twoDigits? hLow).expect? hDash (by decide)]

theorem time? (h : DigitLine cs) : Moment.time? cs = none := by
  have hColon : isDigit ':' = false := by decide
  unfold Moment.time? Moment.within?
  cases hHour : Moment.twoDigits? cs with
  | none => rfl
  | some hour => simp [Option.filter, (h.twoDigits? hHour).expect? hColon (by decide)]

theorem not_moment (h : DigitLine cs) : Moment.read? cs = none := by
  rw [Moment.read?, h.date?]
  exact h.time?

end DigitLine

/-! ## Values -/

theorem numeric?_nat {n : Nat} (hFits : n ≤ 9223372036854775807) (rest : List Char) :
    numeric? (nat n ++ '\n' :: rest) = some (.integer n, '\n' :: rest) := by
  simp [numeric?, (DigitLine.of_nat n rest).not_moment, Number.float?_nat, Number.integer?_nat hFits]

theorem scalar?_nat {n : Nat} (hFits : n ≤ 9223372036854775807) (rest : List Char) :
    scalar? (nat n ++ '\n' :: rest) = some (.integer n, '\n' :: rest) := by
  rw [← numeric?_nat hFits rest, scalar?] <;>
    exact fun more => Number.nat_line_ne (by decide) n rest _

end Toml

end Latch
