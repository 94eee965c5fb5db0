import Latch.Time.Calendar
import Mathlib.Data.Int.Basic
import Mathlib.Tactic.IntervalCases

/-!
# Counting days

The proleptic Gregorian calendar has one day after another, without end in either direction: months of
fixed lengths, and a leap day in February. The day of a number is found by a formula that counts years
from March and takes 400 of them at a time. It is the day that is reached by counting, one day after the
other, from 1 January 1970 on or back.

* `Date.IsLeap`, `Date.monthLength`, `Date.Valid` — the dates of the calendar;
* `Date.next` — the day after a day;
* `Date.Counted` — the number of a day, by counting from 1 January 1970.

Main results:

* `Date.toDays_next` — the formula counts one more for the next day;
* `Date.ofDays_toDays` — a date is found again from its number;
* `Date.counted_iff` — the date found for a number is the one that is counted to.
-/

namespace Latch

namespace Date

/-! ## The calendar -/

def IsLeap (year : Int) : Prop := year % 4 = 0 ∧ (year % 100 ≠ 0 ∨ year % 400 = 0)

instance (year : Int) : Decidable (IsLeap year) := inferInstanceAs (Decidable (_ ∧ _))

def monthLength (year : Int) : (month : Nat) → Nat
  | 2 => if IsLeap year then 29 else 28
  | 4 | 6 | 9 | 11 => 30
  | _ => 31

/-- A date of the calendar. -/
structure Valid (date : Date) : Prop where
  month_pos : 1 ≤ date.month
  month_le : date.month ≤ 12
  day_pos : 1 ≤ date.day
  day_le : date.day ≤ monthLength date.year date.month

/-- The day after. -/
def next (date : Date) : Date :=
  if date.day < monthLength date.year date.month then ⟨date.year, date.month, date.day + 1⟩
  else if date.month < 12 then ⟨date.year, date.month + 1, 1⟩
  else ⟨date.year + 1, 1, 1⟩

/-- The number of a day, by counting from 1 January 1970 on and back. -/
inductive Counted : Int → Date → Prop
  | epoch : Counted 0 ⟨1970, 1, 1⟩
  | next {n : Int} {date : Date} (h : Counted n date) : Counted (n + 1) date.next
  | previous {n : Int} {date : Date} (hValid : date.Valid) (h : Counted n date.next) :
      Counted (n - 1) date

variable {date : Date} {n : Int}

theorem monthLength_pos (year : Int) (month : Nat) : 1 ≤ monthLength year month := by
  unfold monthLength
  split
  · split <;> decide
  all_goals decide

theorem monthLength_le (year : Int) (month : Nat) : monthLength year month ≤ 31 := by
  unfold monthLength
  split
  · split <;> decide
  all_goals decide

theorem valid_mk {year : Int} {month day : Nat} (hMonth : 1 ≤ month) (hMonth' : month ≤ 12)
    (hDay : 1 ≤ day) (hDay' : day ≤ monthLength year month) : Valid ⟨year, month, day⟩ :=
  ⟨hMonth, hMonth', hDay, hDay'⟩

theorem valid_next (h : date.Valid) : date.next.Valid := by
  obtain ⟨hMonth, hMonth', hDay, hDay'⟩ := h
  unfold next
  split
  case isTrue hLess => exact valid_mk hMonth hMonth' (Nat.le_add_left 1 date.day) hLess
  case isFalse =>
    split
    case isTrue hMore =>
      exact valid_mk (Nat.le_add_left 1 date.month) hMore (Nat.le_refl 1) (monthLength_pos _ _)
    case isFalse => exact valid_mk (by decide) (by decide) (Nat.le_refl 1) (monthLength_pos _ 1)

/-- Every day has a day before it. -/
theorem exists_next_eq (h : date.Valid) : ∃ before : Date, before.Valid ∧ before.next = date := by
  obtain ⟨year, month, day⟩ := date
  obtain ⟨hMonth, hMonth', hDay, hDay'⟩ := h
  dsimp only at hMonth hMonth' hDay hDay'
  by_cases hFirst : day = 1
  · subst hFirst
    by_cases hJanuary : month = 1
    · -- the last day of the year before
      subst hJanuary
      refine ⟨⟨year - 1, 12, 31⟩, valid_mk (by decide) (by decide) (by decide) (Nat.le_refl 31), ?_⟩
      simp [next, monthLength]
    · -- the last day of the month before
      have hLess : month - 1 < 12 := by omega
      have hNext : month - 1 + 1 = month := by omega
      refine ⟨⟨year, month - 1, monthLength year (month - 1)⟩,
        valid_mk (by omega) (by omega) (monthLength_pos _ _) (Nat.le_refl _), ?_⟩
      simp [next, hLess, hNext]
  · have hLess : day - 1 < monthLength year month := by omega
    have hNext : day - 1 + 1 = day := by omega
    refine ⟨⟨year, month, day - 1⟩, valid_mk hMonth hMonth' (by omega) (by omega), ?_⟩
    simp [next, hLess, hNext]

theorem valid_epoch : Valid ⟨1970, 1, 1⟩ :=
  valid_mk (by decide) (by decide) (by decide) (by decide)

/-- Counting reaches a date for every number. -/
theorem exists_counted (n : Int) : ∃ date : Date, date.Valid ∧ Counted n date := by
  induction n using Int.induction_on with
  | zero => exact ⟨_, valid_epoch, .epoch⟩
  | succ n ih =>
    obtain ⟨date, hValid, hCount⟩ := ih
    exact ⟨date.next, valid_next hValid, hCount.next⟩
  | pred n ih =>
    -- the day before is the one that this day comes after
    obtain ⟨date, hValid, hCount⟩ := ih
    obtain ⟨before, hBefore, rfl⟩ := exists_next_eq hValid
    exact ⟨before, hBefore, .previous hBefore hCount⟩

/-! ## Counting by the formula -/

/-- Days from the first of March of year 0 to that of another year. -/
def yearStart (year : Int) : Int := year / 400 * daysPerEra + daysBeforeYear (year % 400)

/-- The year, counted from March, to which a month belongs. -/
def marchYear (year : Int) (month : Nat) : Int := if month ≤ 2 then year - 1 else year

/-- The month, counted from March as month 0. -/
def marchMonth (month : Nat) : Int := if month ≤ 2 then month + 9 else month - 3

/-- Days from the first of March of year 0 to the first day of a month. -/
def monthStart (year : Int) (month : Nat) : Int :=
  yearStart (marchYear year month) + daysBeforeMonth (marchMonth month)

theorem toDays_mk (year : Int) (month day : Nat) :
    toDays ⟨year, month, day⟩ = monthStart year month + day - 1 - epochOffset := by
  simp only [toDays, monthStart, yearStart, marchYear, marchMonth]
  omega

/-- A year from March on ends with the February of the next year. -/
theorem yearStart_succ (year : Int) :
    yearStart (year + 1) = yearStart year + (if IsLeap (year + 1) then 366 else 365) := by
  simp only [yearStart, daysBeforeYear, daysPerEra]
  -- in both cases the next year may begin an era, or lie in the same one
  by_cases hLeap : IsLeap (year + 1)
  · rw [if_pos hLeap]
    obtain ⟨hFour, hHundred⟩ := hLeap
    omega
  · rw [if_neg hLeap]
    simp only [IsLeap, not_and_or, not_or, not_not] at hLeap
    omega

/-- A month ends where the next one starts. -/
theorem monthStart_succ {year : Int} {month : Nat} (h : 1 ≤ month) (h' : month < 12) :
    monthStart year (month + 1) = monthStart year month + monthLength year month := by
  by_cases hFebruary : month = 2
  · -- with March a new year begins
    subst hFebruary
    have hYear := yearStart_succ (year - 1)
    rw [Int.sub_add_cancel] at hYear
    show yearStart year + 0 = yearStart (year - 1) + 337 + (if IsLeap year then 29 else 28 : Nat)
    rw [hYear]
    split <;> omega
  · interval_cases month
    case «2» => exact absurd rfl hFebruary
    all_goals
      simp only [monthStart, marchYear, marchMonth, daysBeforeMonth, monthLength, Nat.reduceLeDiff,
        Nat.reduceAdd, if_true, if_false]
      omega

theorem monthStart_january (year : Int) : monthStart (year + 1) 1 = monthStart year 12 + 31 := by
  show yearStart (year + 1 - 1) + 306 = yearStart year + 275 + 31
  rw [Int.add_sub_cancel]
  omega

/-- **The next day has the next number.** -/
theorem toDays_next (h : date.Valid) : date.next.toDays = date.toDays + 1 := by
  obtain ⟨year, month, day⟩ := date
  obtain ⟨hMonth, hMonth', hDay, hDay'⟩ := h
  dsimp only at hMonth hMonth' hDay hDay'
  unfold next
  dsimp only
  split
  case isTrue hLess =>
    rw [toDays_mk, toDays_mk]
    omega
  case isFalse hLast =>
    have hDayEq : day = monthLength year month := by omega
    split
    case isTrue hMore =>
      have hNext := @monthStart_succ year month hMonth hMore
      rw [toDays_mk, toDays_mk, hNext, hDayEq]
      omega
    case isFalse hDecember =>
      -- the year ends, but not the one counted from March
      have hMonthEq : month = 12 := by omega
      have hNext := monthStart_january year
      have hLength : monthLength year 12 = 31 := rfl
      rw [toDays_mk, toDays_mk, hNext, hDayEq, hMonthEq, hLength]
      omega

/-- Every date that is counted to is one of the calendar, and has its number by the formula. -/
theorem Counted.toDays_eq (h : Counted n date) : date.Valid ∧ date.toDays = n := by
  induction h with
  | epoch => exact ⟨valid_epoch, rfl⟩
  | @next n date _ ih =>
    obtain ⟨hValid, hDays⟩ := ih
    exact ⟨valid_next hValid, by rw [toDays_next hValid, hDays]⟩
  | @previous n date hValid _ ih =>
    refine ⟨hValid, ?_⟩
    have hNext := toDays_next hValid
    omega

/-! ## Finding the day of a number -/

section

variable {c q k day d : Int}

/-- A day of an era, by its century, the four years within that, and the year within those. Every
century but the last lacks the leap day of its end. -/
structure InEra (c q k day d : Int) : Prop where
  century_lt : 0 ≤ c ∧ c < 4
  fours_lt : 0 ≤ q ∧ q < 25
  year_lt : 0 ≤ k ∧ k < 4
  day_le : 0 ≤ day ∧ day ≤ 365
  leap : day = 365 → k = 3 ∧ (q < 24 ∨ c = 3)
  eq : d = 36524 * c + 1461 * q + 365 * k + day

theorem InEra.div_century (h : InEra c q k day d) : d / 36524 - d / 146096 = c := by
  obtain ⟨hc, hq, hk, hDay, hLeap, hd⟩ := h
  have hLow : 36524 * c ≤ d := by omega
  -- only the last day of the era is beyond its four centuries
  have hHigh : d < 36524 * c + 36524 ∨ c = 3 ∧ d = 146096 := by omega
  clear hLeap hd hDay hk hq
  omega

theorem InEra.div_fours (h : InEra c q k day d) :
    d / 1460 = 25 * c + q + (24 * c + q + 365 * k + day) / 1460 := by
  have hd := h.eq
  omega

/-- The day that is taken off too much for the last year of four does not lead to another year. -/
theorem InEra.day_off (h : InEra c q k day d) :
    0 ≤ day - (24 * c + q + 365 * k + day) / 1460 ∧
      day - (24 * c + q + 365 * k + day) / 1460 < 365 := by
  obtain ⟨hc, hq, hk, hDay, hLeap, -⟩ := h
  omega

theorem InEra.yearOfEra_eq (h : InEra c q k day d) : yearOfEra d = 100 * c + 4 * q + k := by
  have hCenturies := h.div_century
  have hFours := h.div_fours
  have hOff := h.day_off
  have hd := h.eq
  have hSum : d - d / 1460 + d / 36524 - d / 146096 =
      365 * (100 * c + 4 * q + k) + (day - (24 * c + q + 365 * k + day) / 1460) := by omega
  rw [yearOfEra, hSum]
  omega

end

/-- **The year of a day of an era.** -/
theorem yearOfEra_eq {year day : Int} (hYear : 0 ≤ year ∧ year < 400) (hDay : 0 ≤ day)
    (hLast : day < if IsLeap (year + 1) then 366 else 365) :
    yearOfEra (daysBeforeYear year + day) = year := by
  have hLeap : day ≤ 365 ∧ (day = 365 → IsLeap (year + 1)) := by
    split at hLast
    case isTrue hLeap => exact ⟨by omega, fun _ => hLeap⟩
    case isFalse => omega
  have hParts : InEra (year / 100) (year % 100 / 4) (year % 4) day (daysBeforeYear year + day) := by
    refine ⟨by omega, by omega, by omega, ⟨hDay, hLeap.1⟩, ?_, ?_⟩
    · intro hEnd
      obtain ⟨hFour, hHundred⟩ := hLeap.2 hEnd
      omega
    · unfold daysBeforeYear
      omega
  rw [hParts.yearOfEra_eq]
  omega

/-- The month of a day of a year, both counted from March. -/
theorem monthOfYear_eq {month day : Int} (hDay : daysBeforeMonth month ≤ day)
    (hDay' : day < daysBeforeMonth (month + 1)) : (5 * day + 2) / 153 = month := by
  unfold daysBeforeMonth at hDay hDay'
  omega

theorem isLeap_emod (year : Int) : IsLeap (year % 400 + 1) ↔ IsLeap (year + 1) := by
  unfold IsLeap
  omega

/-- The day of a number, if its year and month from March on are known. -/
theorem ofDays_eq {year month day : Int} (hDay : daysBeforeMonth month ≤ day)
    (hDay' : day < daysBeforeMonth (month + 1)) (hMonth : 0 ≤ month)
    (hLast : day < if IsLeap (year + 1) then 366 else 365) :
    ofDays (yearStart year + day - epochOffset) =
      { year := year + (if month ≥ 10 then 1 else 0)
        month := (if month ≥ 10 then month - 9 else month + 3).toNat
        day := (day - daysBeforeMonth month + 1).toNat } := by
  have hPositive : 0 ≤ day := by
    unfold daysBeforeMonth at hDay
    omega
  have hShort : day < 366 := by
    split at hLast <;> omega
  have hRange : 0 ≤ year % 400 ∧ year % 400 < 400 := by omega
  have hYear : yearOfEra (daysBeforeYear (year % 400) + day) = year % 400 := by
    refine yearOfEra_eq hRange hPositive ?_
    simpa only [isLeap_emod] using hLast
  -- the day lies in the era of its year
  have hEra : 0 ≤ daysBeforeYear (year % 400) + day ∧
      daysBeforeYear (year % 400) + day < daysPerEra := by
    unfold daysBeforeYear daysPerEra
    omega
  have hShifted : yearStart year + day - epochOffset + epochOffset =
      year / 400 * daysPerEra + (daysBeforeYear (year % 400) + day) := by
    unfold yearStart
    omega
  have hDiv : (year / 400 * daysPerEra + (daysBeforeYear (year % 400) + day)) / daysPerEra =
      year / 400 := by
    rw [Int.add_comm, Int.add_mul_ediv_right _ _ (by decide), Int.ediv_eq_zero_of_lt hEra.1 hEra.2]
    omega
  have hMod : (year / 400 * daysPerEra + (daysBeforeYear (year % 400) + day)) % daysPerEra =
      daysBeforeYear (year % 400) + day := by
    rw [Int.add_comm, Int.add_mul_emod_self_right, Int.emod_eq_of_lt hEra.1 hEra.2]
  have hOfYear : daysBeforeYear (year % 400) + day - daysBeforeYear (year % 400) = day := by omega
  have hSplit : year / 400 * 400 + year % 400 = year := by omega
  unfold ofDays
  dsimp only
  rw [hShifted, hDiv, hMod, hYear, hOfYear, monthOfYear_eq hDay hDay', hSplit]

/-- Where a date lies in its year and month, both counted from March. -/
theorem Valid.march {year : Int} {month day : Nat} (h : Valid ⟨year, month, day⟩) :
    0 ≤ marchMonth month ∧
    (daysBeforeMonth (marchMonth month) + day - 1 < daysBeforeMonth (marchMonth month + 1)) ∧
    (daysBeforeMonth (marchMonth month) + day - 1 <
      if IsLeap (marchYear year month + 1) then 366 else 365) := by
  obtain ⟨hMonth, hMonth', hDay, hDay'⟩ := h
  dsimp only at hMonth hMonth' hDay hDay'
  by_cases hFebruary : month = 2
  · subst hFebruary
    have hYear : marchYear year 2 + 1 = year := Int.sub_add_cancel year 1
    have hStart : daysBeforeMonth (marchMonth 2) = 337 := rfl
    have hEnd : daysBeforeMonth (marchMonth 2 + 1) = 367 := rfl
    rw [hYear, hStart, hEnd]
    have hLength : monthLength year 2 = if IsLeap year then 29 else 28 := rfl
    rw [hLength] at hDay'
    by_cases hLeap : IsLeap year
    · rw [if_pos hLeap] at hDay' ⊢
      refine ⟨by decide, ?_, ?_⟩ <;> omega
    · rw [if_neg hLeap] at hDay' ⊢
      refine ⟨by decide, ?_, ?_⟩ <;> omega
  · -- no other month is the last one from March on
    have hLong : (365 : Int) ≤ if IsLeap (marchYear year month + 1) then 366 else 365 := by
      split <;> decide
    have hMarch : 0 ≤ marchMonth month ∧ daysBeforeMonth (marchMonth month + 1) ≤ 337 ∧
        daysBeforeMonth (marchMonth month) + monthLength year month =
          daysBeforeMonth (marchMonth month + 1) := by
      interval_cases month
      case «2» => exact absurd rfl hFebruary
      all_goals exact ⟨by decide, by decide, rfl⟩
    omega

/-- **A date is found again from its number.** -/
theorem ofDays_toDays (h : date.Valid) : ofDays date.toDays = date := by
  obtain ⟨year, month, day⟩ := date
  obtain ⟨hStart, hEnd, hLast⟩ := h.march
  obtain ⟨hMonth, hMonth', hDay, -⟩ := h
  dsimp only at hMonth hMonth' hDay
  have hDays : toDays ⟨year, month, day⟩ = yearStart (marchYear year month) +
      (daysBeforeMonth (marchMonth month) + day - 1) - epochOffset := by
    rw [toDays_mk, monthStart]
    omega
  have hFirst : daysBeforeMonth (marchMonth month) ≤ daysBeforeMonth (marchMonth month) + day - 1 := by
    omega
  rw [hDays, ofDays_eq hFirst hEnd hStart hLast]
  unfold marchYear marchMonth
  -- January and February belong to the year that began in the March before
  by_cases hEarly : month ≤ 2
  · simp only [if_pos hEarly]
    rw [if_pos (by omega), if_pos (by omega)]
    congr 1 <;> omega
  · simp only [if_neg hEarly]
    rw [if_neg (by omega), if_neg (by omega)]
    congr 1 <;> omega

/-- **The day found for a number is the one that is counted to**, and the only one. -/
theorem counted_iff : Counted n date ↔ ofDays n = date := by
  constructor
  · intro h
    obtain ⟨hValid, hDays⟩ := h.toDays_eq
    rw [← hDays, ofDays_toDays hValid]
  · -- counting reaches some day, and the formula finds that one
    rintro rfl
    obtain ⟨date, -, hCount⟩ := exists_counted n
    obtain ⟨hValid, hDays⟩ := hCount.toDays_eq
    rwa [← hDays, ofDays_toDays hValid, hDays]

theorem valid_ofDays (n : Int) : (ofDays n).Valid :=
  (counted_iff.mpr rfl).toDays_eq.1

end Date

end Latch
