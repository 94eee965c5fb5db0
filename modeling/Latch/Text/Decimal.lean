/-!
# Decimal text

How whole numbers are written, and how a text is read as one:

* `Decimal.nat`, `Decimal.int` — the shortest decimal text of a number;
* `Decimal.padded` — the same with leading zeros up to a width;
* `Decimal.readNat`, `Decimal.readInt` — an optional sign and digits, any number of leading zeros;
* `Decimal.Fault` — why a text is no number of a given range.
-/

namespace Latch.Decimal

/-! ## Writing -/

def nat (n : Nat) : List Char := Nat.toDigits 10 n

def int : Int → List Char
  | .ofNat n => nat n
  | .negSucc n => '-' :: nat (n + 1)

def padded (width n : Nat) : List Char :=
  List.replicate (width - (nat n).length) '0' ++ nat n

/-- The same as strings. -/
def natText (n : Nat) : String := String.ofList (nat n)

def intText (n : Int) : String := String.ofList (int n)

/-! ## Reading -/

/-- Only the ten ASCII digits count; digits of other scripts do not. -/
def isDigit (c : Char) : Bool := '0' ≤ c && c ≤ '9'

/-- Value of a digit. -/
def digitValue (c : Char) : Nat := c.toNat - '0'.toNat

inductive Fault where
  | empty
  | invalidDigit
  | tooLarge
  | tooSmall
deriving DecidableEq, Repr

def Fault.message : Fault → String
  | .empty => "cannot parse integer from empty string"
  | .invalidDigit => "invalid digit found in string"
  | .tooLarge => "number too large to fit in target type"
  | .tooSmall => "number too small to fit in target type"

/-- Reads digits from left to right after those that made up `seen`. The first character that is no
digit, or that takes the value to `limit` or beyond, decides on the fault. -/
def scan (limit : Nat) (beyond : Fault) (seen : Nat) : List Char → Except Fault Nat
  | [] => .ok seen
  | c :: rest =>
    if isDigit c then
      let n := seen * 10 + digitValue c
      if n < limit then scan limit beyond n rest else .error beyond
    else .error .invalidDigit

/-- The digits after a sign; a sign alone is not a number. -/
def magnitude (limit : Nat) (beyond : Fault) (digits : List Char) : Except Fault Nat :=
  if digits.isEmpty then .error .invalidDigit else scan limit beyond 0 digits

/-- Reads a number of `0 … limit - 1`: an optional plus sign, then digits. -/
def readNat (limit : Nat) : List Char → Except Fault Nat
  | [] => .error .empty
  | '+' :: digits => magnitude limit .tooLarge digits
  | digits => magnitude limit .tooLarge digits

/-- Reads a number of `-limit … limit - 1`: an optional sign, then digits. -/
def readInt (limit : Nat) : List Char → Except Fault Int
  | [] => .error .empty
  | '-' :: digits => (magnitude (limit + 1) .tooSmall digits).map fun n => -(n : Int)
  | '+' :: digits => (magnitude limit .tooLarge digits).map Int.ofNat
  | digits => (magnitude limit .tooLarge digits).map Int.ofNat

end Latch.Decimal
