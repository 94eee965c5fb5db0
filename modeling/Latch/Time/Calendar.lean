import Latch.Text.Decimal

/-!
# Calendar

The proleptic Gregorian calendar over all integers, and the written form of a moment in UTC:

* `Date.ofDays`, `Date.toDays` — days since 1970-01-01 and back;
* `DateTime.ofMillis` — a moment split into date and time of day;
* `DateTime.text` — the RFC 3339 form with offset `+00:00`.

A year is counted from March, so that the leap day is the last day of its year and the months before
it have a fixed pattern of lengths; 400 such years have 146097 days.
-/

namespace Latch

structure Date where
  year : Int
  month : Nat
  day : Nat
deriving DecidableEq, Repr

namespace Date

/-! ## Lengths -/

def isLeapYear (year : Nat) : Bool := year % 4 = 0 && (year % 100 ≠ 0 || year % 400 = 0)

def daysInMonth (year month : Nat) : Nat :=
  if month = 2 then if isLeapYear year then 29 else 28
  else if month = 4 ∨ month = 6 ∨ month = 9 ∨ month = 11 then 30
  else 31

/-! ## Counting days -/

/-- Days from the first of March of year 0 to 1970-01-01. -/
def epochOffset : Int := 719468

def daysPerEra : Int := 146097

/-- The year, within an era of 400 years that begin in March, of a day of that era. -/
def yearOfEra (day : Int) : Int := (day - day / 1460 + day / 36524 - day / 146096) / 365

def daysBeforeYear (year : Int) : Int := 365 * year + year / 4 - year / 100

/-- Days before a month, counted from March as month 0. -/
def daysBeforeMonth (month : Int) : Int := (153 * month + 2) / 5

def ofDays (days : Int) : Date :=
  let shifted := days + epochOffset
  let era := shifted / daysPerEra
  let dayOfEra := shifted % daysPerEra
  let year := yearOfEra dayOfEra
  let dayOfYear := dayOfEra - daysBeforeYear year
  let month := (5 * dayOfYear + 2) / 153
  let early := month ≥ 10
  { year := era * 400 + year + (if early then 1 else 0)
    month := (if early then month - 9 else month + 3).toNat
    day := (dayOfYear - daysBeforeMonth month + 1).toNat }

def toDays (date : Date) : Int :=
  let year := if date.month ≤ 2 then date.year - 1 else date.year
  let month : Int := if date.month ≤ 2 then date.month + 9 else date.month - 3
  let era := year / 400
  let dayOfEra := daysBeforeYear (year % 400) + daysBeforeMonth month + date.day - 1
  era * daysPerEra + dayOfEra - epochOffset

end Date

structure DateTime where
  date : Date
  hour : Nat
  minute : Nat
  second : Nat
  milli : Nat
deriving DecidableEq, Repr

namespace DateTime

def millisPerDay : Int := 86400000

def ofMillis (millis : Int) : DateTime :=
  let ofDay := (millis % millisPerDay).toNat
  { date := Date.ofDays (millis / millisPerDay)
    hour := ofDay / 3600000
    minute := ofDay / 60000 % 60
    second := ofDay / 1000 % 60
    milli := ofDay % 1000 }

/-- Four digits for the years 0 to 9999; any other year has a sign and at least four digits. -/
def yearText (year : Int) : List Char :=
  if 0 ≤ year ∧ year ≤ 9999 then Decimal.padded 4 year.toNat
  else (if year < 0 then '-' else '+') :: Decimal.padded 4 year.natAbs

/-- The fraction of a second is written only if there is one, and then with three digits. -/
def fractionText (milli : Nat) : List Char :=
  if milli = 0 then [] else '.' :: Decimal.padded 3 milli

def text (t : DateTime) : List Char :=
  yearText t.date.year ++ '-' :: Decimal.padded 2 t.date.month ++ '-' :: Decimal.padded 2 t.date.day
    ++ 'T' :: Decimal.padded 2 t.hour ++ ':' :: Decimal.padded 2 t.minute
    ++ ':' :: Decimal.padded 2 t.second ++ fractionText t.milli ++ "+00:00".toList

end DateTime

end Latch
