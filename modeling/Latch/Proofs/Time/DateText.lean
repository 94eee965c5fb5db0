import Latch.Proofs.Text.Decimal
import Latch.Proofs.Time.Calendar

/-!
# Moments as text

A moment is written as a date and a time of day, and both can be read off the text again: the parts have
fixed widths or end where something else than a digit follows, so no text stands for two dates.

* `DateTime.Valid` — a date of the calendar and a time of day;
* `DateTime.IsAt` — the moment of a date and time, by counting days;
* `DateTime.Written` — the text of a date and time.

Main results:

* `DateTime.isAt_ofMillis` — a moment is split into its date and time;
* `DateTime.written_text` — a date and time is written as its text;
* `DateTime.Written.unique` — no two are written alike.
-/

namespace Latch

namespace DateTime

open Decimal (Digits)

variable {t t' : DateTime} {u v : Int} {cs : List Char}

/-! ## The moment of a date and time -/

structure Valid (t : DateTime) : Prop where
  date : t.date.Valid
  hour : t.hour < 24
  minute : t.minute < 60
  second : t.second < 60
  milli : t.milli < 1000

/-- The date and time is `u` milliseconds after the beginning of 1 January 1970. -/
structure IsAt (t : DateTime) (u : Int) : Prop where
  valid : t.Valid
  moment : ∃ days : Int, Date.Counted days t.date ∧
    days * 86400000 + t.hour * 3600000 + t.minute * 60000 + t.second * 1000 + t.milli = u

/-- **A moment is split into its date and time.** -/
theorem isAt_ofMillis (u : Int) : (ofMillis u).IsAt u := by
  have hDay : 0 ≤ u % millisPerDay ∧ u % millisPerDay < 86400000 := by
    unfold millisPerDay
    omega
  have hSplit : u / millisPerDay * 86400000 + u % millisPerDay = u := by
    unfold millisPerDay
    omega
  obtain ⟨ofDay, hOfDay⟩ : ∃ n : Nat, u % millisPerDay = n := Int.eq_ofNat_of_zero_le hDay.1
  refine ⟨⟨Date.valid_ofDays _, ?_, ?_, ?_, ?_⟩, u / millisPerDay, Date.counted_iff.mpr rfl, ?_⟩
  all_goals
    simp only [ofMillis, hOfDay, Int.toNat_natCast] at hDay hSplit ⊢
    omega

/-- A date and time has one moment. -/
theorem IsAt.unique (h : t.IsAt u) (h' : t.IsAt v) : u = v := by
  obtain ⟨-, days, hDays, rfl⟩ := h
  obtain ⟨-, days', hDays', rfl⟩ := h'
  have hSame : days = days' := hDays.toDays_eq.2.symm.trans hDays'.toDays_eq.2
  rw [hSame]

/-! ## The text of a date and time -/

/-- Years of up to four digits are written with four; those before and after have a sign, and at least
four digits. -/
inductive YearText : Int → List Char → Prop
  | plain {year : Nat} {digits : List Char} (hDigits : Digits year digits)
      (hWidth : digits.length = 4) : YearText year digits
  | later {year : Nat} {digits : List Char} (hYear : 9999 < year) (hDigits : Digits year digits) :
      YearText year ('+' :: digits)
  | earlier {year : Nat} {digits : List Char} (hYear : 0 < year) (hDigits : Digits year digits)
      (hWidth : 4 ≤ digits.length) : YearText (-year) ('-' :: digits)

/-- A fraction of a second is written with three digits, and not at all if there is none. -/
inductive FractionText : Nat → List Char → Prop
  | none : FractionText 0 []
  | some {milli : Nat} {digits : List Char} (hMilli : milli ≠ 0) (hDigits : Digits milli digits)
      (hWidth : digits.length = 3) : FractionText milli ('.' :: digits)

/-- The text of a date and time in UTC, such as `2024-02-29T23:59:59.001+00:00`. -/
inductive Written (t : DateTime) : List Char → Prop
  | intro {year month day hour minute second fraction : List Char}
      (hYear : YearText t.date.year year)
      (hMonth : Digits t.date.month month) (hMonthWidth : month.length = 2)
      (hDay : Digits t.date.day day) (hDayWidth : day.length = 2)
      (hHour : Digits t.hour hour) (hHourWidth : hour.length = 2)
      (hMinute : Digits t.minute minute) (hMinuteWidth : minute.length = 2)
      (hSecond : Digits t.second second) (hSecondWidth : second.length = 2)
      (hFraction : FractionText t.milli fraction) :
      Written t (year ++ '-' :: (month ++ '-' :: (day ++ 'T' :: (hour ++ ':' :: (minute ++
        ':' :: (second ++ (fraction ++ "+00:00".toList)))))))

theorem yearText_written (year : Int) : YearText year (yearText year) := by
  unfold yearText
  by_cases hPlain : 0 ≤ year ∧ year ≤ 9999
  · rw [if_pos hPlain]
    obtain ⟨n, rfl⟩ := Int.eq_ofNat_of_zero_le hPlain.1
    have hFits : n < 10000 := by omega
    exact .plain (Decimal.digits_padded 4 n) (Decimal.length_padded (by decide) hFits)
  · rw [if_neg hPlain]
    by_cases hEarlier : year < 0
    · rw [if_pos hEarlier]
      obtain ⟨n, rfl⟩ : ∃ n : Nat, year = -n := ⟨year.natAbs, by omega⟩
      rw [Int.natAbs_neg, Int.natAbs_natCast]
      exact .earlier (by omega) (Decimal.digits_padded 4 n) (Decimal.le_length_padded 4 n)
    · rw [if_neg hEarlier]
      obtain ⟨n, rfl⟩ := Int.eq_ofNat_of_zero_le (Int.not_lt.mp hEarlier)
      exact .later (by omega) (Decimal.digits_padded 4 n)

theorem fractionText_written {milli : Nat} (h : milli < 1000) :
    FractionText milli (fractionText milli) := by
  unfold fractionText
  by_cases hNone : milli = 0
  · rw [if_pos hNone, hNone]
    exact .none
  · rw [if_neg hNone]
    exact .some hNone (Decimal.digits_padded 3 milli) (Decimal.length_padded (by decide) h)

/-- **A date and time is written as its text.** -/
theorem written_text (h : t.Valid) : t.Written t.text := by
  have hTwo : ∀ n : Nat, n < 100 → (Decimal.padded 2 n).length = 2 := fun n hn =>
    Decimal.length_padded (by decide) hn
  have hMonth : t.date.month < 100 := Nat.lt_of_le_of_lt h.date.month_le (by decide)
  have hDay : t.date.day < 100 :=
    Nat.lt_of_le_of_lt (h.date.day_le.trans (Date.monthLength_le _ _)) (by decide)
  have hText := Written.intro (t := t) (yearText_written t.date.year)
    (Decimal.digits_padded 2 t.date.month) (hTwo _ hMonth)
    (Decimal.digits_padded 2 t.date.day) (hTwo _ hDay)
    (Decimal.digits_padded 2 t.hour) (hTwo _ (Nat.lt_trans h.hour (by decide)))
    (Decimal.digits_padded 2 t.minute) (hTwo _ (Nat.lt_trans h.minute (by decide)))
    (Decimal.digits_padded 2 t.second) (hTwo _ (Nat.lt_trans h.second (by decide)))
    (fractionText_written h.milli)
  simpa only [text, List.append_assoc, List.cons_append] using hText

/-! ## Reading the text again -/

section

variable {n n' : Nat} {digits digits' rest rest' : List Char} {c : Char}

/-- Numbers that are followed by the same sign can be read off a text. -/
theorem digits_unique (h : Digits n digits) (h' : Digits n' digits')
    (hStop : Decimal.isDigit c = false) (hSame : digits ++ c :: rest = digits' ++ c :: rest') :
    n = n' ∧ rest = rest' := by
  have hEnd : ∀ {more : List Char}, ∀ d ∈ (c :: more).head?, Decimal.isDigit d = false := by
    intro more d hd
    cases hd
    exact hStop
  obtain ⟨hDigits, hRest⟩ := Decimal.append_inj h.isDigit h'.isDigit hEnd hEnd hSame
  refine ⟨?_, (List.cons.inj hRest).2⟩
  rw [← h.value, hDigits, h'.value]

/-- Digits do not begin with a sign. -/
theorem digits_ne_sign (h : Digits n digits) (hSome : digits.length = 4)
    (hSign : Decimal.isDigit c = false) : digits ++ rest ≠ c :: rest' := by
  intro hSame
  cases digits with
  | nil => cases hSome
  | cons first more =>
    have hFirst : first = c := (List.cons.inj hSame).1
    rw [← hFirst, h.isDigit first List.mem_cons_self] at hSign
    cases hSign

end

theorem YearText.unique {year year' : Int} {a b rest rest' : List Char} (h : YearText year a)
    (h' : YearText year' b) (hSame : a ++ '-' :: rest = b ++ '-' :: rest') :
    year = year' ∧ rest = rest' := by
  -- the first character tells the three forms apart: a digit, or one of two signs
  have hStop : Decimal.isDigit '-' = false := rfl
  have hPlus : Decimal.isDigit '+' = false := rfl
  cases h with
  | plain hDigits hWidth =>
    cases h' with
    | plain hDigits' =>
      obtain ⟨rfl, hRest⟩ := digits_unique hDigits hDigits' hStop hSame
      exact ⟨rfl, hRest⟩
    | later => exact absurd hSame (digits_ne_sign hDigits hWidth hPlus)
    | earlier => exact absurd hSame (digits_ne_sign hDigits hWidth hStop)
  | later hYear hDigits =>
    cases h' with
    | plain hDigits' hWidth' => exact absurd hSame.symm (digits_ne_sign hDigits' hWidth' hPlus)
    | later hYear' hDigits' =>
      obtain ⟨rfl, hRest⟩ := digits_unique hDigits hDigits' hStop (List.cons.inj hSame).2
      exact ⟨rfl, hRest⟩
    | earlier => exact absurd (List.cons.inj hSame).1 (by decide)
  | earlier hYear hDigits =>
    cases h' with
    | plain hDigits' hWidth' => exact absurd hSame.symm (digits_ne_sign hDigits' hWidth' hStop)
    | later => exact absurd (List.cons.inj hSame).1 (by decide)
    | earlier hYear' hDigits' =>
      obtain ⟨rfl, hRest⟩ := digits_unique hDigits hDigits' hStop (List.cons.inj hSame).2
      exact ⟨rfl, hRest⟩

theorem FractionText.unique {milli milli' : Nat} (h : FractionText milli cs)
    (h' : FractionText milli' cs) : milli = milli' := by
  cases h with
  | none =>
    cases h' with
    | none => rfl
  | some _ hDigits =>
    cases h' with
    | some _ hDigits' => rw [← hDigits.value, hDigits'.value]

/-- What follows the seconds is no digit. -/
theorem FractionText.stops {milli : Nat} {rest : List Char} (h : FractionText milli cs) :
    ∀ c ∈ (cs ++ '+' :: rest).head?, Decimal.isDigit c = false := by
  intro c hc
  cases h with
  | none =>
    cases hc
    rfl
  | some =>
    cases hc
    rfl

/-- **No two dates and times are written alike.** -/
theorem Written.unique (h : t.Written cs) (h' : t'.Written cs) : t = t' := by
  generalize hSame : cs = cs' at h'
  cases h with
  | intro hYear hMonth _ hDay _ hHour _ hMinute _ hSecond _ hFraction =>
    cases h' with
    | intro hYear' hMonth' _ hDay' _ hHour' _ hMinute' _ hSecond' _ hFraction' =>
      -- the parts are read off from left to right; each leaves the text after its sign
      obtain ⟨hYearEq, hSame⟩ := hYear.unique hYear' hSame
      obtain ⟨hMonthEq, hSame⟩ := digits_unique hMonth hMonth' rfl hSame
      obtain ⟨hDayEq, hSame⟩ := digits_unique hDay hDay' rfl hSame
      obtain ⟨hHourEq, hSame⟩ := digits_unique hHour hHour' rfl hSame
      obtain ⟨hMinuteEq, hSame⟩ := digits_unique hMinute hMinute' rfl hSame
      -- the seconds are followed by a fraction or by the offset
      obtain ⟨hDigits, hSame⟩ := Decimal.append_inj hSecond.isDigit hSecond'.isDigit
        hFraction.stops hFraction'.stops hSame
      have hSecondEq : t.second = t'.second := by
        rw [← hSecond.value, hDigits, hSecond'.value]
      rw [List.append_cancel_right hSame] at hFraction
      have hMilliEq := hFraction.unique hFraction'
      obtain ⟨⟨year, month, day⟩, hour, minute, second, milli⟩ := t
      obtain ⟨⟨year', month', day'⟩, hour', minute', second', milli'⟩ := t'
      dsimp only at hYearEq hMonthEq hDayEq hHourEq hMinuteEq hSecondEq hMilliEq
      rw [hYearEq, hMonthEq, hDayEq, hHourEq, hMinuteEq, hSecondEq, hMilliEq]

/-- The text of a date and time ends with its offset. -/
theorem Written.ends (h : t.Written cs) : ∃ front, cs = front ++ "+00:00".toList := by
  cases h
  exact ⟨_, by simp only [← List.append_assoc, ← List.cons_append]; rfl⟩

end DateTime

end Latch
