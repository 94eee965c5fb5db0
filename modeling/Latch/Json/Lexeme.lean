import Latch.Double
import Latch.Text.Decimal
import Latch.Text.Hex

/-!
# JSON lexemes

The smallest pieces of a JSON text and the faults that reading one can meet, from left to right:

* `Fault` — malformed text, text that ends too early, and well-formed text of a wrong shape;
* `expectWord` — the rest of a fixed word;
* `Text.run` — a string after its opening quotation mark;
* `Number.scan` — a number.

A reader takes the input and returns what it has read together with the rest.
-/

namespace Latch.Json

inductive Fault where
  /-- The text is no JSON. -/
  | malformed
  /-- The text ends before the value does. -/
  | truncated
  /-- A well-formed part has the wrong kind, or is missing, or is there twice. -/
  | mismatch
deriving DecidableEq, Repr

abbrev Reader (α : Type) : Type := List Char → Except Fault (α × List Char)

def isSpace (c : Char) : Bool := c = ' ' || c = '\n' || c = '\t' || c = '\r'

def dropSpace (cs : List Char) : List Char := cs.dropWhile isSpace

/-- Reads the characters of a word. -/
def expectWord : List Char → List Char → Except Fault (List Char)
  | [], cs => .ok cs
  | _ :: _, [] => .error .truncated
  | c :: word, d :: cs => if d = c then expectWord word cs else .error .malformed

/-! ## Strings

A string is read by an automaton. An escape `\u` stands for a unit of 16 bits; characters beyond those
are written as a high and a low unit. A strict reader refuses units that are no part of a pair, a
reader that only skips the string does not look at them. -/

namespace Text

inductive State where
  | plain
  | escape
  /-- Within a unit: the digits that are missing and the value so far. -/
  | unit (left value : Nat)
  /-- After a high unit: a backslash must follow. -/
  | high (value : Nat)
  /-- After a high unit and a backslash: a unit must follow. -/
  | highEscape (value : Nat)
  | low (high left value : Nat)
deriving DecidableEq, Repr

inductive Step where
  | go (out : List Char) (next : State)
  | close
  | fail (fault : Fault)

def escaped? : Char → Option Char
  | '"' => some '"'
  | '\\' => some '\\'
  | '/' => some '/'
  | 'b' => some '\x08'
  | 'f' => some '\x0c'
  | 'n' => some '\n'
  | 'r' => some '\r'
  | 't' => some '\t'
  | _ => none

def isHigh (value : Nat) : Bool := 0xd800 ≤ value && value < 0xdc00

def isLow (value : Nat) : Bool := 0xdc00 ≤ value && value < 0xe000

/-- The character of a high and a low unit. -/
def pairChar (high low : Nat) : Char :=
  Char.ofNat ((high - 0xd800) * 0x400 + (low - 0xdc00) + 0x10000)

/-- What a unit that is complete leads to. -/
def unitDone (strict : Bool) (value : Nat) : Step :=
  if !strict then .go [] .plain
  else if isHigh value then .go [] (.high value)
  else if isLow value then .fail .malformed
  else .go [Char.ofNat value] .plain

def lowDone (high value : Nat) : Step :=
  if isLow value then .go [pairChar high value] .plain else .fail .malformed

/-- Length of a text in bytes of UTF-8. -/
def byteLength (cs : List Char) : Nat := cs.foldl (fun n c => n + c.utf8Size) 0

/-- Takes a digit of a unit. What is no digit is malformed, unless the input is too short for the
missing digits anyway. -/
def digitStep (again : Nat → Nat → State) (finish : Nat → Step) (left value : Nat) (c : Char)
    (rest : List Char) : Step :=
  match Hex.value? c with
  | some digit =>
    if left ≤ 1 then finish (value * 16 + digit)
    else .go [] (again (left - 1) (value * 16 + digit))
  | none => if byteLength (c :: rest) < left then .fail .truncated else .fail .malformed

def step (strict : Bool) (state : State) (c : Char) (rest : List Char) : Step :=
  match state with
  | .plain =>
    if c = '"' then .close
    else if c = '\\' then .go [] .escape
    else if c.toNat < 0x20 then .fail .malformed
    else .go [c] .plain
  | .escape =>
    if c = 'u' then .go [] (.unit 4 0)
    else match escaped? c with
      | some decoded => .go [decoded] .plain
      | none => .fail .malformed
  | .unit left value => digitStep .unit (unitDone strict) left value c rest
  | .high value => if c = '\\' then .go [] (.highEscape value) else .fail .malformed
  | .highEscape value => if c = 'u' then .go [] (.low value 4 0) else .fail .malformed
  | .low high left value => digitStep (.low high) (lowDone high) left value c rest

/-- Reads a string up to its closing quotation mark. -/
def run (strict : Bool) : State → Reader (List Char)
  | _, [] => .error .truncated
  | state, c :: rest =>
    match step strict state c rest with
    | .close => .ok ([], rest)
    | .fail fault => .error fault
    | .go out next => (run strict next rest).map fun (text, rest) => (out ++ text, rest)

def read (cs : List Char) : Except Fault (List Char × List Char) := run true .plain cs

def skip (cs : List Char) : Except Fault (List Char) :=
  (run false .plain cs).map Prod.snd

end Text

/-! ## Numbers -/

inductive Number where
  | whole (isNegative : Bool) (n : Nat)
  /-- A number with a fraction or an exponent, or one that no 64-bit word holds. -/
  | double
deriving DecidableEq, Repr

namespace Number

/-- The number as an integer; the negative zero is none. -/
def toInt? : Number → Option Int
  | whole isNegative n =>
    if !isNegative then some n else if n = 0 then none else some (-(n : Int))
  | double => none

/-- The digits at the start of a text as a significand below `2 ^ 64`. From the first digit on that
would make it larger all others are dropped: gives the significand, the digits taken into it, and
those dropped. -/
def accumulate (significand : Nat) : List Char → Nat × Nat × Nat
  | [] => (significand, 0, 0)
  | c :: digits =>
    let n := significand * 10 + Decimal.digitValue c
    if n < UInt64.size then
      let (result, taken, dropped) := accumulate n digits
      (result, taken + 1, dropped)
    else (significand, 0, digits.length + 1)

/-- Whether `significand * 10 ^ exponent`, computed with doubles, is infinite. -/
def isTooLarge (significand : Nat) (exponent : Int) : Bool :=
  match exponent with
  | .negSucc _ => false
  | .ofNat up =>
    significand ≠ 0 &&
      (308 < up || Double.overflow ≤ Double.nearest significand * Double.nearest (Nat.pow 10 up))

/-- Accepts a double that is not too large. -/
def finish (significand : Nat) (exponent : Int) (rest : List Char) :
    Except Fault (Number × List Char) :=
  if isTooLarge significand exponent then .error .malformed else .ok (.double, rest)

def value (digits : List Char) : Nat :=
  digits.foldl (fun n c => n * 10 + Decimal.digitValue c) 0

def dropSign : List Char → Bool × List Char
  | '-' :: cs => (true, cs)
  | '+' :: cs => (false, cs)
  | cs => (false, cs)

/-- Reads an exponent after its letter. -/
def exponent (significand : Nat) (scale : Int) (cs : List Char) :
    Except Fault (Number × List Char) :=
  let (isNegative, cs) := dropSign cs
  match cs with
  | [] => .error .truncated
  | c :: _ =>
    if Decimal.isDigit c then
      let n : Int := value (cs.takeWhile Decimal.isDigit)
      finish significand (if isNegative then scale - n else scale + n)
        (cs.dropWhile Decimal.isDigit)
    else .error .malformed

def isExponentMark (c : Char) : Bool := c = 'e' || c = 'E'

/-- Reads what follows the digits before and after the point. -/
def afterDigits (significand : Nat) (scale : Int) : List Char → Except Fault (Number × List Char)
  | [] => finish significand scale []
  | c :: cs =>
    if isExponentMark c then exponent significand scale cs else finish significand scale (c :: cs)

/-- Reads a fraction after its point. -/
def fraction (significand : Nat) (scale : Int) (cs : List Char) :
    Except Fault (Number × List Char) :=
  match cs with
  | [] => .error .truncated
  | c :: _ =>
    if Decimal.isDigit c then
      let (significand, taken, _) := accumulate significand (cs.takeWhile Decimal.isDigit)
      afterDigits significand (scale - taken) (cs.dropWhile Decimal.isDigit)
    else .error .malformed

/-- Reads what follows the whole part. -/
def afterWhole (isNegative : Bool) (digits rest : List Char) : Except Fault (Number × List Char) :=
  let (significand, _, dropped) := accumulate 0 digits
  match rest with
  | '.' :: cs => fraction significand dropped cs
  | c :: cs =>
    if isExponentMark c then exponent significand dropped cs
    else if dropped = 0 then .ok (.whole isNegative significand, c :: cs)
    else finish significand dropped (c :: cs)
  | [] =>
    if dropped = 0 then .ok (.whole isNegative significand, [])
    else finish significand dropped []

/-- Reads a number after its sign; a leading zero stands alone. -/
def unsigned (isNegative : Bool) (cs : List Char) : Except Fault (Number × List Char) :=
  match cs with
  | [] => .error .truncated
  | '0' :: rest =>
    match rest with
    | c :: _ => if Decimal.isDigit c then .error .malformed else afterWhole isNegative ['0'] rest
    | [] => afterWhole isNegative ['0'] rest
  | c :: _ =>
    if Decimal.isDigit c then
      afterWhole isNegative (cs.takeWhile Decimal.isDigit) (cs.dropWhile Decimal.isDigit)
    else .error .malformed

def scan : List Char → Except Fault (Number × List Char)
  | '-' :: cs => unsigned true cs
  | cs => unsigned false cs

end Number

end Latch.Json
