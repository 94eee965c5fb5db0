import Latch.Time.Calendar

/-!
# TOML dates and times

A date, a time of day, or both with an optional offset. Only the form and the ranges are checked;
what is read is not kept.

* `Moment.date?`, `Moment.time?`, `Moment.offset?` — the parts;
* `Moment.read?` — reads any of the allowed combinations and returns the rest of the input.
-/

namespace Latch.Toml.Moment

open Latch.Decimal (isDigit digitValue)

def twoDigits? : List Char → Option (Nat × List Char)
  | a :: b :: rest =>
    if isDigit a && isDigit b then some (digitValue a * 10 + digitValue b, rest) else none
  | _ => none

def fourDigits? (cs : List Char) : Option (Nat × List Char) := do
  let (high, cs) ← twoDigits? cs
  let (low, rest) ← twoDigits? cs
  return (high * 100 + low, rest)

/-- Two digits whose value lies in a range. -/
def within? (low high : Nat) (cs : List Char) : Option (Nat × List Char) :=
  (twoDigits? cs).filter fun (n, _) => low ≤ n && n ≤ high

def expect? (c : Char) : List Char → Option (List Char)
  | d :: rest => if d = c then some rest else none
  | [] => none

def date? (cs : List Char) : Option (List Char) := do
  let (year, cs) ← fourDigits? cs
  let (month, cs) ← within? 1 12 (← expect? '-' cs)
  let (_, rest) ← within? 1 (Date.daysInMonth year month) (← expect? '-' cs)
  return rest

/-- Drops a point with at least one digit; anything else is left alone. -/
def dropFraction : List Char → List Char
  | '.' :: c :: rest => if isDigit c then rest.dropWhile isDigit else '.' :: c :: rest
  | cs => cs

/-- A time of day; a minute may have a leap second. -/
def time? (cs : List Char) : Option (List Char) := do
  let (_, cs) ← within? 0 23 cs
  let (_, cs) ← within? 0 59 (← expect? ':' cs)
  let (_, rest) ← within? 0 60 (← expect? ':' cs)
  return dropFraction rest

def offset? : List Char → Option (List Char)
  | [] => none
  | c :: cs =>
    if c = 'Z' || c = 'z' then some cs
    else if c = '+' || c = '-' then do
      let (_, cs) ← within? 0 23 cs
      let (_, rest) ← within? 0 59 (← expect? ':' cs)
      return rest
    else none

/-- The time and the offset after a date, as far as they are there. -/
def dropTime : List Char → List Char
  | [] => []
  | c :: cs =>
    if c = 'T' || c = 't' || c = ' ' then
      match time? cs with
      | some rest => (offset? rest).getD rest
      | none => c :: cs
    else c :: cs

def read? (cs : List Char) : Option (List Char) :=
  match date? cs with
  | some rest => some (dropTime rest)
  | none => time? cs

end Latch.Toml.Moment
