import Latch.Text.Decimal
import Mathlib.Data.List.Induction
import Mathlib.Data.List.TakeWhile

/-!
# Decimal text

What numbers are written with, and which texts are read as numbers. A reader is given a limit and looks
at the value after each digit; since more digits never make a smaller number, that comes to comparing
the number as a whole, however many digits there are.

* `Decimal.Digits` — digits and their number;
* `Decimal.Below` — digits whose number is below a limit.

Main results:

* `Decimal.isDigit_of_mem_nat`, `Decimal.nat_eq_cons`, `Decimal.digits_padded` — what a number is written
  with;
* `Decimal.int_injective` — no two numbers are written alike;
* `Decimal.nat_ofDigitChars` — digits without idle zeros are what their number is written with;
* `Decimal.append_inj` — digits end where they are followed by something else;
* `Decimal.readNat_eq_ok_iff` — which texts are read as a natural number, and as which;
* `Decimal.readNat_lt`, `Decimal.readInt_range` — what is read is in range.
-/

namespace Latch.Decimal

variable {limit n seen : Nat} {beyond : Fault} {cs digits : List Char}

/-! ## Writing -/

theorem isDigit_iff {c : Char} : isDigit c = true ↔ '0' ≤ c ∧ c ≤ '9' := by
  simp [isDigit]

/-- What is no digit differs from every digit. -/
theorem ne_of_isDigit {c d : Char} (hDigit : isDigit c = true) (hNot : isDigit d = false) : c ≠ d := by
  rintro rfl
  rw [hDigit] at hNot
  cases hNot

theorem isDigit_of_mem_nat {n : Nat} {c : Char} (hMem : c ∈ nat n) : isDigit c = true := by
  have hDigit : c.isDigit = true := Nat.isDigit_of_mem_toDigits (by decide) (Nat.le_refl 10) hMem
  simpa [isDigit, Char.isDigit, Char.le_def] using hDigit

/-- Only zero starts with a zero. -/
theorem nat_eq_cons (n : Nat) : ∃ first more, nat n = first :: more ∧ (first = '0' → n = 0) := by
  induction n using Nat.strongRecOn with
  | ind n ih =>
    rw [nat, Nat.toDigits_eq_if (by decide)]
    split
    case isTrue => exact ⟨_, [], rfl, Nat.digitChar_eq_zero.mp⟩
    case isFalse hLarge =>
      -- the digits before the last one are those of a smaller number, which is not zero
      obtain ⟨first, more, hFirst, hZero⟩ := ih (n / 10) (by omega)
      rw [nat] at hFirst
      refine ⟨first, more ++ [(n % 10).digitChar], by rw [hFirst]; rfl, fun hStart => ?_⟩
      have hNone := hZero hStart
      omega

/-- The digits of a number make that number. -/
theorem ofDigitChars_nat (n : Nat) : Nat.ofDigitChars 10 (nat n) 0 = n :=
  Nat.ofDigitChars_ten_toDigits

/-- Digits and the number they make. -/
structure Digits (n : Nat) (cs : List Char) : Prop where
  isDigit : ∀ c ∈ cs, isDigit c = true
  value : Nat.ofDigitChars 10 cs 0 = n

/-- Leading zeros do not change a number. -/
theorem digits_padded (width n : Nat) : Digits n (padded width n) where
  isDigit c hc := by
    rcases List.mem_append.mp hc with hZero | hDigit
    · rw [List.eq_of_mem_replicate hZero]
      rfl
    · exact isDigit_of_mem_nat hDigit
  value := by
    rw [padded, Nat.ofDigitChars_append, Nat.ofDigitChars_replicate_zero, Nat.mul_zero,
      ofDigitChars_nat]

theorem le_length_padded (width n : Nat) : width ≤ (padded width n).length := by
  rw [padded, List.length_append, List.length_replicate]
  omega

/-- A number that fits is written with just as many digits as there are to be. -/
theorem length_padded {width : Nat} (hSome : 0 < width) (hFits : n < Nat.pow 10 width) :
    (padded width n).length = width := by
  have hLength : (nat n).length ≤ width := (Nat.length_toDigits_le_iff (by decide) hSome).mpr hFits
  rw [padded, List.length_append, List.length_replicate]
  omega

/-- No two integers are written alike. -/
theorem int_injective : Function.Injective int := by
  have hSign : ∀ (n : Nat) (digits : List Char), nat n ≠ '-' :: digits := by
    intro n digits hSame
    have hDigit : isDigit '-' = true := isDigit_of_mem_nat (n := n) (by simp [hSame])
    exact absurd hDigit (by decide)
  have hNat : ∀ n m : Nat, nat n = nat m → n = m := by
    intro n m hSame
    rw [← ofDigitChars_nat n, hSame, ofDigitChars_nat]
  intro a b h
  cases a with
  | ofNat n =>
    cases b with
    | ofNat m => exact congrArg Int.ofNat (hNat n m h)
    | negSucc m => exact absurd h (hSign n _)
  | negSucc n =>
    cases b with
    | ofNat m => exact absurd h.symm (hSign m _)
    | negSucc m =>
      have hSame := hNat _ _ (List.cons.inj h).2
      rw [Nat.succ.inj hSame]

theorem intText_eq_toString (z : Int) : intText z = toString z := by
  cases z with
  | ofNat n => rfl
  | negSucc n =>
    show String.ofList ('-' :: nat (n + 1)) = "-" ++ String.ofList (nat (n + 1))
    rw [String.ofList_cons]
    rfl

/-- A digit is the character of its value. -/
theorem digit_eq {c : Char} (hDigit : isDigit c = true) :
    digitValue c < 10 ∧ Nat.digitChar (digitValue c) = c := by
  obtain ⟨hFirst, hLast⟩ := isDigit_iff.mp hDigit
  have hLow : 48 ≤ c.toNat := UInt32.le_iff_toNat_le.mp hFirst
  have hHigh : c.toNat ≤ 57 := UInt32.le_iff_toNat_le.mp hLast
  have hZero : '0'.toNat = 48 := rfl
  have hAll : ∀ n, n < 10 → Nat.digitChar n = Char.ofNat (48 + n) := by decide
  have hSmall : digitValue c < 10 := by
    rw [digitValue]
    omega
  refine ⟨hSmall, ?_⟩
  rw [hAll _ hSmall, digitValue, hZero, Nat.add_sub_cancel' hLow, Char.ofNat_toNat]

/-- Digits without idle zeros are those that their number is written with. -/
theorem nat_ofDigitChars (hDigits : ∀ c ∈ digits, isDigit c = true) (hSome : digits ≠ [])
    (hZero : digits.head? = some '0' → digits = ['0']) : nat (Nat.ofDigitChars 10 digits 0) = digits := by
  induction digits using List.reverseRecOn with
  | nil => exact absurd rfl hSome
  | append_singleton more c ih =>
    obtain ⟨hSmall, hChar⟩ := digit_eq (hDigits c (by simp))
    rw [Nat.ofDigitChars_append]
    show Nat.toDigits 10 (10 * Nat.ofDigitChars 10 more 0 + digitValue c) = _
    by_cases hNone : more = []
    · subst hNone
      rw [Nat.ofDigitChars_nil, Nat.mul_zero, Nat.zero_add, Nat.toDigits_of_lt_base hSmall, hChar]
      rfl
    · -- the digits before the last one do not start with a zero, so that their number is none
      have hStart : more.head? ≠ some '0' := by
        obtain ⟨first, rest, rfl⟩ := List.exists_cons_of_ne_nil hNone
        intro hHead
        have hAlone : first :: (rest ++ [c]) = ['0'] := hZero hHead
        simp at hAlone
      have hMore := ih (fun d hd => hDigits d (List.mem_append_left _ hd)) hNone
        (fun hHead => absurd hHead hStart)
      have hPositive : 0 < Nat.ofDigitChars 10 more 0 := by
        refine Nat.pos_of_ne_zero fun hNull => hStart ?_
        rw [← hMore, hNull]
        rfl
      rw [← Nat.toDigits_append_toDigits (by decide) hPositive hSmall, Nat.toDigits_of_lt_base hSmall, hChar]
      exact congrArg (· ++ [c]) hMore

/-! ## Where digits end -/

section

variable {rest digits' rest' : List Char}

theorem takeWhile_isDigit (hDigits : ∀ c ∈ digits, isDigit c = true)
    (hEnd : ∀ c ∈ rest.head?, isDigit c = false) :
    (digits ++ rest).takeWhile isDigit = digits ∧ (digits ++ rest).dropWhile isDigit = rest := by
  rw [List.takeWhile_append_of_pos hDigits, List.dropWhile_append_of_pos hDigits]
  cases rest with
  | nil => exact ⟨List.append_nil _, rfl⟩
  | cons c rest =>
    have hStop : ¬ isDigit c = true := by simp [hEnd c rfl]
    rw [List.takeWhile_cons_of_neg hStop, List.dropWhile_cons_of_neg hStop, List.append_nil]
    exact ⟨rfl, rfl⟩

/-- Digits end where they are followed by something else. -/
theorem append_inj (hDigits : ∀ c ∈ digits, isDigit c = true)
    (hDigits' : ∀ c ∈ digits', isDigit c = true) (hEnd : ∀ c ∈ rest.head?, isDigit c = false)
    (hEnd' : ∀ c ∈ rest'.head?, isDigit c = false) (h : digits ++ rest = digits' ++ rest') :
    digits = digits' ∧ rest = rest' := by
  obtain ⟨hTake, hDrop⟩ := takeWhile_isDigit hDigits hEnd
  obtain ⟨hTake', hDrop'⟩ := takeWhile_isDigit hDigits' hEnd'
  constructor
  · rw [← hTake, h, hTake']
  · rw [← hDrop, h, hDrop']

end

/-! ## Reading -/

theorem ofDigitChars_cons (seen : Nat) (c : Char) (cs : List Char) :
    Nat.ofDigitChars 10 (c :: cs) seen = Nat.ofDigitChars 10 cs (seen * 10 + digitValue c) := by
  rw [Nat.mul_comm]
  rfl

/-- More digits make no smaller number. -/
theorem le_ofDigitChars (seen : Nat) (cs : List Char) : seen ≤ Nat.ofDigitChars 10 cs seen := by
  induction cs generalizing seen with
  | nil => exact Nat.le_refl seen
  | cons c cs ih =>
    rw [ofDigitChars_cons]
    have hMore := ih (seen * 10 + digitValue c)
    omega

/-- **Digits are read exactly if their number is below the limit.** -/
theorem scan_eq_ok_iff : scan limit beyond seen cs = .ok n ↔
    (∀ c ∈ cs, isDigit c = true) ∧ Nat.ofDigitChars 10 cs seen = n ∧ (cs ≠ [] → n < limit) := by
  induction cs generalizing seen with
  | nil => simp [scan, Nat.ofDigitChars]
  | cons c rest ih =>
    rw [scan, List.forall_mem_cons, ofDigitChars_cons]
    by_cases hDigit : isDigit c = true
    · rw [if_pos hDigit]
      dsimp only
      by_cases hLt : seen * 10 + digitValue c < limit
      · rw [if_pos hLt, ih]
        -- without more digits the number is the one that was just compared
        have hLast : rest = [] → Nat.ofDigitChars 10 rest (seen * 10 + digitValue c) = n → n < limit := by
          rintro rfl rfl
          exact hLt
        constructor
        · rintro ⟨hRest, hValue, hBelow⟩
          refine ⟨⟨hDigit, hRest⟩, hValue, fun _ => ?_⟩
          by_cases hEmpty : rest = []
          · exact hLast hEmpty hValue
          · exact hBelow hEmpty
        · rintro ⟨⟨-, hRest⟩, hValue, hBelow⟩
          exact ⟨hRest, hValue, fun _ => hBelow (by simp)⟩
      · rw [if_neg hLt]
        have hLarge := le_ofDigitChars (seen * 10 + digitValue c) rest
        simp only [reduceCtorEq, false_iff]
        rintro ⟨-, rfl, hBelow⟩
        have := hBelow (by simp)
        omega
    · rw [if_neg hDigit]
      simp [hDigit]

/-- Digits whose number is below a limit. -/
structure Below (limit : Nat) (digits : List Char) (n : Nat) : Prop extends Digits n digits where
  ne_nil : digits ≠ []
  lt : n < limit

theorem magnitude_eq_ok_iff : magnitude limit beyond digits = .ok n ↔ Below limit digits n := by
  unfold magnitude
  cases digits with
  | nil =>
    simp only [List.isEmpty_nil, if_true, reduceCtorEq, false_iff]
    exact fun h => h.ne_nil rfl
  | cons c rest =>
    simp only [List.isEmpty_cons, Bool.false_eq_true, if_false, scan_eq_ok_iff]
    constructor
    · rintro ⟨hDigits, hValue, hLt⟩
      exact ⟨⟨hDigits, hValue⟩, by simp, hLt (by simp)⟩
    · intro h
      exact ⟨h.isDigit, h.value, fun _ => h.lt⟩

/-- **A natural number is read from digits with an optional plus sign**, any number of leading zeros
included. -/
theorem readNat_eq_ok_iff : readNat limit cs = .ok n ↔
    ∃ digits, (cs = digits ∨ cs = '+' :: digits) ∧ Below limit digits n := by
  cases cs with
  | nil =>
    simp only [readNat, reduceCtorEq, false_iff]
    rintro ⟨digits, rfl | hSign, h⟩
    · exact h.ne_nil rfl
    · cases hSign
  | cons c rest =>
    by_cases hSign : c = '+'
    · subst hSign
      show magnitude limit .tooLarge rest = .ok n ↔ _
      rw [magnitude_eq_ok_iff]
      constructor
      · exact fun h => ⟨rest, Or.inr rfl, h⟩
      · rintro ⟨digits, rfl | hSame, h⟩
        · exact absurd (h.isDigit '+' (by simp)) (by decide)
        · cases hSame
          exact h
    · have hRead : readNat limit (c :: rest) = magnitude limit .tooLarge (c :: rest) := by
        rw [readNat]
        · simp
        · simp [hSign]
      rw [hRead, magnitude_eq_ok_iff]
      constructor
      · exact fun h => ⟨c :: rest, Or.inl rfl, h⟩
      · rintro ⟨digits, rfl | hSame, h⟩
        · exact h
        · cases hSame
          exact absurd rfl hSign

theorem readNat_lt (h : readNat limit cs = .ok n) : n < limit := by
  obtain ⟨digits, -, hBelow⟩ := readNat_eq_ok_iff.mp h
  exact hBelow.lt

theorem readInt_range {z : Int} (hLimit : 0 < limit) (h : readInt limit cs = .ok z) :
    -limit ≤ z ∧ z < limit := by
  have hPlain : ∀ {digits : List Char},
      (magnitude limit .tooLarge digits).map Int.ofNat = .ok z → -limit ≤ z ∧ z < limit := by
    intro digits hRead
    cases hDigits : magnitude limit .tooLarge digits with
    | error fault =>
      rw [hDigits] at hRead
      cases hRead
    | ok n =>
      rw [hDigits] at hRead
      cases hRead
      have hLt := (magnitude_eq_ok_iff.mp hDigits).lt
      simp only [Int.ofNat_eq_natCast]
      omega
  unfold readInt at h
  split at h
  · cases h
  · rename_i digits
    cases hDigits : magnitude (limit + 1) .tooSmall digits with
    | error fault =>
      rw [hDigits] at h
      cases h
    | ok n =>
      rw [hDigits] at h
      cases h
      have hLt := (magnitude_eq_ok_iff.mp hDigits).lt
      dsimp only
      omega
  · exact hPlain h
  · exact hPlain h

end Latch.Decimal
