import Latch.Json.Skip
import Latch.Proofs.Json.Spaces
import Latch.Proofs.Text.Decimal

/-!
# The numbers of JSON

A number has a whole part, of which a leading zero stands alone, and may have a sign, a fraction and an
exponent. Only what has neither a fraction nor an exponent is read as an integer, and only up to 64 bits;
all else is a double, if it is not too large for one. So an integer has one text only, and no other number
is taken for one.

* `Json.IsNumber` — what numbers are written with.

Main results:

* `Json.Number.scan_int` — every integer of up to 64 bits is read from its digits and sign;
* `Json.Number.eq_int_of_scan` — whatever is read as an integer is its digits and sign;
* `Json.Number.skip_number` — every number is passed over.
-/

namespace Latch.Json

variable {cs rest digits whole fraction exponent sign : List Char}

/-! ## What numbers are written with -/

/-- One digit or more. -/
structure IsDigits (cs : List Char) : Prop where
  isDigit : ∀ c ∈ cs, Decimal.isDigit c = true
  ne_nil : cs ≠ []

/-- The digits of a whole number; a leading zero stands alone. -/
structure IsWhole (cs : List Char) : Prop extends IsDigits cs where
  zero : cs.head? = some '0' → cs = ['0']

inductive IsFraction : List Char → Prop
  | missing : IsFraction []
  | point {digits : List Char} (hDigits : IsDigits digits) : IsFraction ('.' :: digits)

inductive IsExponent : List Char → Prop
  | missing : IsExponent []
  | mark {c : Char} {sign digits : List Char} (hMark : c = 'e' ∨ c = 'E')
      (hSign : sign = [] ∨ sign = ['+'] ∨ sign = ['-']) (hDigits : IsDigits digits) :
      IsExponent (c :: (sign ++ digits))

/-- A number; only its exponent may have a plus sign. -/
inductive IsNumber : List Char → Prop
  | parts {sign whole fraction exponent : List Char} (hSign : sign = [] ∨ sign = ['-'])
      (hWhole : IsWhole whole) (hFraction : IsFraction fraction) (hExponent : IsExponent exponent) :
      IsNumber (sign ++ (whole ++ (fraction ++ exponent)))

theorem IsDigits.head (h : IsDigits cs) : ∃ c more, cs = c :: more ∧ Decimal.isDigit c = true := by
  obtain ⟨c, more, rfl⟩ := List.exists_cons_of_ne_nil h.ne_nil
  exact ⟨c, more, rfl, h.isDigit c List.mem_cons_self⟩

theorem isWhole_nat (n : Nat) : IsWhole (Decimal.nat n) := by
  obtain ⟨first, more, hFirst, hZero⟩ := Decimal.nat_eq_cons n
  refine ⟨⟨fun c => Decimal.isDigit_of_mem_nat, by rw [hFirst]; exact List.cons_ne_nil _ _⟩, ?_⟩
  intro hStart
  rw [hFirst] at hStart
  cases hZero (Option.some.inj hStart)
  rfl

/-- Digits without idle zeros are those that their number is written with. -/
theorem IsWhole.nat_eq (h : IsWhole cs) : Decimal.nat (Nat.ofDigitChars 10 cs 0) = cs :=
  Decimal.nat_ofDigitChars h.isDigit h.ne_nil h.zero

theorem isNumber_int (z : Int) : IsNumber (Decimal.int z) := by
  cases z with
  | ofNat n =>
    have hParts := IsNumber.parts (.inl rfl) (isWhole_nat n) .missing .missing
    rwa [List.nil_append, List.append_nil, List.append_nil] at hParts
  | negSucc n =>
    have hParts := IsNumber.parts (.inr rfl) (isWhole_nat (n + 1)) .missing .missing
    rwa [List.append_nil, List.append_nil] at hParts

/-- What may start a number. -/
def startsNumber (c : Char) : Bool := c = '-' || Decimal.isDigit c

theorem IsNumber.head (h : IsNumber cs) : ∃ c more, cs = c :: more ∧ startsNumber c = true := by
  obtain ⟨rfl | rfl, hWhole, -, -⟩ := h
  · obtain ⟨c, more, rfl, hDigit⟩ := hWhole.head
    exact ⟨c, _, rfl, by simp [startsNumber, hDigit]⟩
  · exact ⟨'-', _, rfl, rfl⟩

/-- What starts no number differs from all that does. -/
theorem ne_of_startsNumber {c d : Char} (hStarts : startsNumber c = true)
    (hNot : startsNumber d = false) : c ≠ d := by
  rintro rfl
  rw [hStarts] at hNot
  cases hNot

/-! ## Where the parts end -/

/-- What follows is no more of some digits. -/
def NoDigit (rest : List Char) : Prop := ∀ c ∈ rest.head?, Decimal.isDigit c = false

theorem Ends.noDigit (h : Ends rest) : NoDigit rest := fun c hc => (h c hc).1

/-- After the exponent is read, or before it, there is neither a digit nor a point. -/
theorem IsExponent.follows (h : IsExponent exponent) (hEnds : Ends rest) :
    ∀ c ∈ (exponent ++ rest).head?, Decimal.isDigit c = false ∧ c ≠ '.' := by
  cases h with
  | missing => exact fun c hc => ⟨(hEnds c hc).1, (hEnds c hc).2.1⟩
  | mark hMark hSign hDigits =>
    intro d hd
    cases hd
    rcases hMark with rfl | rfl <;> decide

theorem IsFraction.noDigit (h : IsFraction fraction) (hExponent : IsExponent exponent)
    (hEnds : Ends rest) : NoDigit (fraction ++ (exponent ++ rest)) := by
  cases h with
  | missing => exact fun c hc => (hExponent.follows hEnds c hc).1
  | point hDigits =>
    intro d hd
    cases hd
    rfl

namespace Number

variable {isNegative : Bool} {n seen significand : Nat} {scale : Int} {rest' : List Char}

theorem dropSign_of_digits (hDigits : IsDigits digits) :
    dropSign (digits ++ rest) = (false, digits ++ rest) := by
  obtain ⟨c, more, rfl, hDigit⟩ := hDigits.head
  have hMinus : c ≠ '-' := Decimal.ne_of_isDigit hDigit (by decide)
  have hPlus : c ≠ '+' := Decimal.ne_of_isDigit hDigit (by decide)
  rw [List.cons_append, dropSign]
  · exact fun cs hSame => hMinus (List.cons.inj hSame).1
  · exact fun cs hSame => hPlus (List.cons.inj hSame).1

/-- The sign of an exponent is taken off its digits. -/
theorem dropSign_append (hSign : sign = [] ∨ sign = ['+'] ∨ sign = ['-']) (hDigits : IsDigits digits) :
    ∃ isNegative, dropSign (sign ++ (digits ++ rest)) = (isNegative, digits ++ rest) := by
  rcases hSign with rfl | rfl | rfl
  · rw [List.nil_append]
    exact ⟨_, dropSign_of_digits hDigits⟩
  · exact ⟨_, rfl⟩
  · exact ⟨_, rfl⟩

theorem isExponentMark_iff {c : Char} : isExponentMark c = true ↔ c = 'e' ∨ c = 'E' := by
  simp [isExponentMark]

/-! ## Skipping -/

theorem skipDigits_append (hDigits : IsDigits digits) (hEnd : NoDigit rest) :
    skipDigits (digits ++ rest) = .ok rest := by
  have hDrop := (Decimal.takeWhile_isDigit hDigits.isDigit hEnd).2
  obtain ⟨c, more, rfl, hDigit⟩ := hDigits.head
  rw [List.cons_append, List.dropWhile_cons_of_pos hDigit] at hDrop
  rw [List.cons_append, skipDigits, if_pos hDigit, hDrop]

theorem skipExponent_append (hExponent : IsExponent exponent) (hEnds : Ends rest) :
    skipExponent (exponent ++ rest) = .ok rest := by
  cases hExponent with
  | missing =>
    cases rest with
    | nil => rfl
    | cons c rest =>
      rw [List.nil_append, skipExponent, (hEnds c rfl).2.2]
      rfl
  | @mark c sign digits hMark hSign hDigits =>
    obtain ⟨isNegative, hDrop⟩ :
        ∃ isNegative, dropSign (sign ++ (digits ++ rest)) = (isNegative, digits ++ rest) :=
      dropSign_append hSign hDigits
    rw [List.cons_append, List.append_assoc, skipExponent, if_pos (isExponentMark_iff.mpr hMark), hDrop]
    exact skipDigits_append hDigits hEnds.noDigit

theorem skipFraction_append (hFraction : IsFraction fraction) (hExponent : IsExponent exponent)
    (hEnds : Ends rest) : skipFraction (fraction ++ (exponent ++ rest)) = .ok rest := by
  cases hFraction with
  | missing =>
    have hSkip : skipFraction (exponent ++ rest) = skipExponent (exponent ++ rest) := by
      rw [skipFraction]
      intro more hPoint
      exact absurd rfl (hExponent.follows hEnds '.' (by rw [hPoint]; rfl)).2
    rw [List.nil_append, hSkip, skipExponent_append hExponent hEnds]
  | point hDigits =>
    have hEnd : NoDigit (exponent ++ rest) := fun c hc => (hExponent.follows hEnds c hc).1
    rw [List.cons_append, skipFraction, skipDigits_append hDigits hEnd]
    exact skipExponent_append hExponent hEnds

/-- A whole part is passed over, and then what may follow it. -/
theorem skipUnsigned_append (hWhole : IsWhole whole) (hEnd : NoDigit rest) :
    skipUnsigned (whole ++ rest) = skipFraction rest := by
  have hSkip : skipDigits (whole ++ rest) = .ok rest := skipDigits_append hWhole.toIsDigits hEnd
  obtain ⟨c, more, rfl, hDigit⟩ := hWhole.head
  by_cases hZero : c = '0'
  · subst hZero
    -- a zero is passed over with a rule of its own, which allows no digit after it
    cases hWhole.zero rfl
    cases rest with
    | nil => rfl
    | cons d rest =>
      have hNot : ¬ Decimal.isDigit d = true := by simp [hEnd d rfl]
      exact if_neg hNot
  · rw [List.cons_append] at hSkip ⊢
    rw [skipUnsigned, hSkip]
    · exact fun d ds hSame => hZero (List.cons.inj hSame).1
    · exact fun hSame => hZero (List.cons.inj hSame).1

/-- **Every number is passed over**, its sign apart. -/
theorem skip_number {c : Char} {more : List Char} (h : IsNumber (c :: more)) (hEnds : Ends rest) :
    skipUnsigned (if c = '-' then more ++ rest else c :: (more ++ rest)) = .ok rest := by
  generalize hSame : c :: more = cs at h
  obtain ⟨hSign, hWhole, hFraction, hExponent⟩ := h
  rename_i sign whole fraction exponent
  have hSkip : skipUnsigned (whole ++ (fraction ++ (exponent ++ rest))) = .ok rest := by
    rw [skipUnsigned_append hWhole (hFraction.noDigit hExponent hEnds)]
    exact skipFraction_append hFraction hExponent hEnds
  rcases hSign with rfl | rfl
  · obtain ⟨d, digits, rfl, hDigit⟩ := hWhole.head
    cases hSame
    rw [if_neg (Decimal.ne_of_isDigit hDigit (by decide))]
    simpa using hSkip
  · cases hSame
    rw [if_pos rfl]
    simpa using hSkip

/-! ## Reading -/

/-- Digits are all taken into the significand if their number has at most 64 bits. -/
theorem accumulate_of_lt (h : Nat.ofDigitChars 10 digits seen < UInt64.size) :
    accumulate seen digits = (Nat.ofDigitChars 10 digits seen, digits.length, 0) := by
  induction digits generalizing seen with
  | nil => rfl
  | cons c digits ih =>
    rw [Decimal.ofDigitChars_cons] at h ⊢
    -- the number so far is no larger than the whole
    have hSeen := Decimal.le_ofDigitChars (seen * 10 + Decimal.digitValue c) digits
    rw [accumulate, if_pos (Nat.lt_of_le_of_lt hSeen h), ih h]
    rfl

/-- Where no digit is dropped, the significand is the number of all of them. -/
theorem accumulate_of_none_dropped (h : (accumulate seen digits).2.2 = 0) :
    (accumulate seen digits).1 = Nat.ofDigitChars 10 digits seen := by
  induction digits generalizing seen with
  | nil => rfl
  | cons c digits ih =>
    rw [Decimal.ofDigitChars_cons]
    rw [accumulate] at h ⊢
    dsimp only at h ⊢
    split at h
    case isTrue hSmall =>
      rw [if_pos hSmall]
      exact ih h
    case isFalse => cases h

/-- A number without fraction and exponent is an integer if all its digits could be taken. -/
theorem afterWhole_of_ends (hEnds : Ends rest) :
    afterWhole isNegative digits rest =
      if (accumulate 0 digits).2.2 = 0 then .ok (.whole isNegative (accumulate 0 digits).1, rest)
      else finish (accumulate 0 digits).1 (accumulate 0 digits).2.2 rest := by
  rw [afterWhole]
  dsimp only
  split
  · exact absurd rfl (hEnds '.' rfl).2.1
  · rename_i c cs _
    rw [(hEnds c rfl).2.2]
    rfl
  · rfl

theorem unsigned_append (hWhole : IsWhole whole) (hEnd : NoDigit rest) :
    unsigned isNegative (whole ++ rest) = afterWhole isNegative whole rest := by
  obtain ⟨hTake, hDrop⟩ := Decimal.takeWhile_isDigit hWhole.isDigit hEnd
  obtain ⟨c, more, rfl, hDigit⟩ := hWhole.head
  by_cases hZero : c = '0'
  · subst hZero
    -- a leading zero stands alone
    cases hWhole.zero rfl
    cases rest with
    | nil => rfl
    | cons d rest =>
      have hNot : ¬ Decimal.isDigit d = true := by simp [hEnd d rfl]
      exact if_neg hNot
  · rw [List.cons_append] at hTake hDrop ⊢
    rw [unsigned, if_pos hDigit, hTake, hDrop]
    exact hZero

/-- A natural number of up to 64 bits is read back from its digits. -/
theorem unsigned_nat (hLt : n < UInt64.size) (hEnds : Ends rest) :
    unsigned isNegative (Decimal.nat n ++ rest) = .ok (.whole isNegative n, rest) := by
  have hValue : Nat.ofDigitChars 10 (Decimal.nat n) 0 = n := Decimal.ofDigitChars_nat n
  rw [unsigned_append (isWhole_nat n) hEnds.noDigit, afterWhole_of_ends hEnds,
    accumulate_of_lt (by rwa [hValue]), hValue]
  rfl

theorem scan_of_whole (hWhole : IsWhole whole) : scan (whole ++ rest) = unsigned false (whole ++ rest) := by
  obtain ⟨c, more, rfl, hDigit⟩ := hWhole.head
  have hPlain : c ≠ '-' := Decimal.ne_of_isDigit hDigit (by decide)
  rw [List.cons_append, scan]
  exact fun cs hMinus => hPlain (List.cons.inj hMinus).1

/-- **An integer of up to 64 bits is read back from its digits and sign.** -/
theorem scan_int {z : Int} (hLt : z.natAbs < UInt64.size) (hEnds : Ends rest) :
    ∃ number, scan (Decimal.int z ++ rest) = .ok (number, rest) ∧ number.toInt? = some z := by
  cases z with
  | ofNat n =>
    exact ⟨.whole false n, (scan_of_whole (isWhole_nat n)).trans (unsigned_nat hLt hEnds), rfl⟩
  | negSucc n =>
    exact ⟨.whole true (n + 1), unsigned_nat hLt hEnds, rfl⟩

/-! ### What is no integer -/

/-- At most a double is read. -/
def AtMostDouble (result : Except Fault (Number × List Char)) : Prop :=
  ∀ number rest, result = .ok (number, rest) → number = .double

theorem atMostDouble_finish : AtMostDouble (finish significand scale rest) := by
  intro number rest' hRead
  rw [finish] at hRead
  split at hRead <;> cases hRead
  rfl

theorem atMostDouble_exponent (cs : List Char) : AtMostDouble (Number.exponent significand scale cs) := by
  intro number rest' hRead
  rw [Number.exponent] at hRead
  dsimp only at hRead
  split at hRead
  · cases hRead
  · split at hRead
    · exact atMostDouble_finish number rest' hRead
    · cases hRead

theorem atMostDouble_afterDigits (cs : List Char) : AtMostDouble (afterDigits significand scale cs) := by
  intro number rest' hRead
  cases cs with
  | nil => exact atMostDouble_finish number rest' hRead
  | cons c cs =>
    rw [afterDigits] at hRead
    split at hRead
    · exact atMostDouble_exponent cs number rest' hRead
    · exact atMostDouble_finish number rest' hRead

theorem atMostDouble_fraction (cs : List Char) : AtMostDouble (Number.fraction significand scale cs) := by
  intro number rest' hRead
  unfold Number.fraction at hRead
  split at hRead
  · cases hRead
  · split at hRead
    · exact atMostDouble_afterDigits _ number rest' hRead
    · cases hRead

/-- What is read as an integer has neither a fraction nor an exponent, and is the number of its digits. -/
theorem whole_of_afterWhole {number : Number} (hFraction : IsFraction fraction)
    (hExponent : IsExponent exponent) (hEnds : Ends rest) (hNumber : number ≠ .double)
    (hRead : afterWhole isNegative digits (fraction ++ (exponent ++ rest)) = .ok (number, rest')) :
    fraction = [] ∧ exponent = [] ∧ number = .whole isNegative (Nat.ofDigitChars 10 digits 0) := by
  cases hFraction with
  | point hDigits => exact absurd (atMostDouble_fraction _ number rest' hRead) hNumber
  | missing =>
    cases hExponent with
    | @mark c sign digits hMark hSign hDigits =>
      -- the exponent is seen as one, and neither as a point nor as the end
      refine absurd ?_ hNumber
      rw [List.nil_append, List.cons_append, afterWhole] at hRead
      dsimp only at hRead
      split at hRead
      · rename_i hSame
        cases hSame
        exact absurd hMark (by decide)
      · rename_i hSame
        cases hSame
        rw [if_pos (isExponentMark_iff.mpr hMark)] at hRead
        exact atMostDouble_exponent _ number rest' hRead
      · rename_i hSame
        cases hSame
    | missing =>
      rw [List.nil_append, List.nil_append, afterWhole_of_ends hEnds] at hRead
      split at hRead
      case isTrue hNone =>
        cases hRead
        exact ⟨rfl, rfl, by rw [accumulate_of_none_dropped hNone]⟩
      case isFalse => exact absurd (atMostDouble_finish number rest' hRead) hNumber

/-- **What is read as an integer is its digits and sign.** -/
theorem eq_int_of_scan {number : Number} {z : Int} (h : IsNumber cs) (hEnds : Ends rest)
    (hRead : scan (cs ++ rest) = .ok (number, rest')) (hNumber : number.toInt? = some z) :
    cs = Decimal.int z := by
  obtain ⟨hSign, hWhole, hFraction, hExponent⟩ := h
  have hInteger : number ≠ .double := by
    rintro rfl
    cases hNumber
  have hEnd := hFraction.noDigit hExponent hEnds
  rcases hSign with rfl | rfl
  · rw [List.nil_append, List.append_assoc, List.append_assoc, scan_of_whole hWhole,
      unsigned_append hWhole hEnd] at hRead
    obtain ⟨rfl, rfl, rfl⟩ := whole_of_afterWhole hFraction hExponent hEnds hInteger hRead
    cases hNumber
    rw [List.nil_append, List.append_nil]
    exact (hWhole.nat_eq.trans (List.append_nil _).symm).symm
  · rw [List.append_assoc, List.append_assoc, List.append_assoc, List.singleton_append, scan,
      unsigned_append hWhole hEnd] at hRead
    obtain ⟨rfl, rfl, rfl⟩ := whole_of_afterWhole hFraction hExponent hEnds hInteger hRead
    rw [List.singleton_append, List.append_nil, List.append_nil, ← hWhole.nat_eq]
    generalize Nat.ofDigitChars 10 _ 0 = n at hNumber ⊢
    cases n with
    -- a zero with a minus sign is no integer
    | zero => cases hNumber
    | succ n =>
      cases hNumber
      rfl

end Number

end Latch.Json
