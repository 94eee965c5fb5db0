import Latch.Double
import Latch.Text.Decimal
import Latch.Text.Hex

/-!
# TOML numbers

* `Number.integer?` — a decimal integer with an optional sign, or digits after `0x`, `0o` or `0b`;
* `Number.float?` — a number with a fraction or an exponent, or one of the named values.

Between two digits an underscore may stand. An integer is a signed 64-bit word. A fractional number
is checked but not kept; one that is too large for a double is refused, unless it is negative.
-/

namespace Latch.Toml.Number

/-! ## Runs of digits -/

/-- Reads digits and single underscores between them. Refused if an underscore is not followed by a
digit. -/
def more? (isDigit : Char → Bool) : List Char → Option (List Char × List Char)
  | '_' :: c :: rest =>
    if isDigit c then (more? isDigit rest).map fun (digits, rest) => (c :: digits, rest) else none
  | ['_'] => none
  | c :: rest =>
    if isDigit c then (more? isDigit rest).map fun (digits, rest) => (c :: digits, rest)
    else some ([], c :: rest)
  | [] => some ([], [])

/-- Reads one digit or more. -/
def digits? (isDigit : Char → Bool) : List Char → Option (List Char × List Char)
  | c :: rest =>
    if isDigit c then (more? isDigit rest).map fun (digits, rest) => (c :: digits, rest) else none
  | [] => none

/-- Reads the whole part of a decimal number; a leading zero stands alone. -/
def whole? : List Char → Option (List Char × List Char)
  | '0' :: rest => some (['0'], rest)
  | cs => digits? Decimal.isDigit cs

/-- Splits off a sign and tells whether it is a minus. -/
def sign : List Char → Bool × List Char
  | '-' :: rest => (true, rest)
  | '+' :: rest => (false, rest)
  | cs => (false, cs)

/-! ## Integers -/

def valueOf (base : Nat) (digits : List Char) : Nat :=
  digits.foldl (fun n c => n * base + (Hex.value? c).getD 0) 0

def isHexDigit (c : Char) : Bool :=
  Decimal.isDigit c || ('a' ≤ c && c ≤ 'f') || ('A' ≤ c && c ≤ 'F')

def isOctalDigit (c : Char) : Bool := '0' ≤ c && c ≤ '7'

def isBinaryDigit (c : Char) : Bool := c = '0' || c = '1'

/-- Keeps an integer that fits into a signed 64-bit word. -/
def fitting? (n : Int) : Option Int :=
  if -9223372036854775808 ≤ n ∧ n ≤ 9223372036854775807 then some n else none

def based? (base : Nat) (isDigit : Char → Bool) (cs : List Char) : Option (Int × List Char) := do
  let (digits, rest) ← digits? isDigit cs
  return (← fitting? (valueOf base digits), rest)

def decimal? (cs : List Char) : Option (Int × List Char) := do
  let (isNegative, cs) := sign cs
  let (digits, rest) ← whole? cs
  let n : Int := valueOf 10 digits
  return (← fitting? (if isNegative then -n else n), rest)

def integer? : List Char → Option (Int × List Char)
  | '0' :: 'x' :: rest => based? 16 isHexDigit rest
  | '0' :: 'o' :: rest => based? 8 isOctalDigit rest
  | '0' :: 'b' :: rest => based? 2 isBinaryDigit rest
  | cs => decimal? cs

/-! ## Fractional numbers -/

/-- Whether `n * 10 ^ exponent` rounds to infinity. Where the number of digits does not decide, the
exponent is small enough to compute with. -/
def isTooLarge (n : Nat) (exponent : Int) : Bool :=
  if n = 0 then false
  else
    let places : Int := (Decimal.nat n).length + exponent
    if places ≤ 308 then false
    else if 309 < places then true
    else match exponent with
      | .ofNat up => Double.overflow ≤ n * Nat.pow 10 up
      | .negSucc down => Double.overflow * Nat.pow 10 (down + 1) ≤ n

def fraction? : List Char → Option (List Char × List Char)
  | '.' :: cs => digits? Decimal.isDigit cs
  | _ => none

def exponent? : List Char → Option (Int × List Char)
  | c :: cs =>
    if c = 'e' || c = 'E' then do
      let (isNegative, cs) := sign cs
      let (digits, rest) ← digits? Decimal.isDigit cs
      let n : Int := valueOf 10 digits
      return (if isNegative then -n else n, rest)
    else none
  | [] => none

/-- The fraction, the exponent, or both, of which one must be there. -/
def tail? (cs : List Char) : Option ((List Char × Int) × List Char) :=
  match cs with
  | '.' :: _ => do
    let (fraction, rest) ← fraction? cs
    match rest with
    | c :: _ =>
      if c = 'e' || c = 'E' then
        let (exponent, rest) ← exponent? rest
        return ((fraction, exponent), rest)
      else return ((fraction, 0), rest)
    | [] => return ((fraction, 0), rest)
  | _ => do
    let (exponent, rest) ← exponent? cs
    return (([], exponent), rest)

/-- Reads infinity or the value that is no number. -/
def named? : List Char → Option (List Char)
  | 'i' :: 'n' :: 'f' :: rest => some rest
  | 'n' :: 'a' :: 'n' :: rest => some rest
  | _ => none

def float? (cs : List Char) : Option (List Char) :=
  let (isNegative, unsigned) := sign cs
  match named? unsigned with
  | some rest => some rest
  | none => do
    let (digits, rest) ← whole? unsigned
    let ((fraction, exponent), rest) ← tail? rest
    let n := valueOf 10 (digits ++ fraction)
    if !isNegative && isTooLarge n (exponent - fraction.length) then none else return rest

end Latch.Toml.Number
