import Latch.Json.Lexeme

/-!
# Skipping JSON values

A value of any shape and any nesting is passed over with a stack of the arrays and objects that are
open. A number that is skipped is not computed, so it cannot be too large, and one that is cut short
counts as malformed.

* `Expect` — what may come next;
* `skip` — passes over one value.
-/

namespace Latch.Json

/-! ## Numbers -/

namespace Number

/-- Passes over one digit or more. -/
def skipDigits : List Char → Except Fault (List Char)
  | [] => .error .malformed
  | c :: cs =>
    if Decimal.isDigit c then .ok (cs.dropWhile Decimal.isDigit) else .error .malformed

def skipExponent : List Char → Except Fault (List Char)
  | [] => .ok []
  | c :: cs => if isExponentMark c then skipDigits (dropSign cs).2 else .ok (c :: cs)

def skipFraction : List Char → Except Fault (List Char)
  | '.' :: cs =>
    match skipDigits cs with
    | .ok rest => skipExponent rest
    | .error fault => .error fault
  | cs => skipExponent cs

/-- Passes over a number after its sign; a leading zero stands alone. -/
def skipUnsigned : List Char → Except Fault (List Char)
  | '0' :: c :: cs => if Decimal.isDigit c then .error .malformed else skipFraction (c :: cs)
  | ['0'] => .ok []
  | cs =>
    match skipDigits cs with
    | .ok rest => skipFraction rest
    | .error fault => .error fault

end Number

/-! ## Values -/

/-- A value that is open. -/
inductive Frame where
  | array
  | object
deriving DecidableEq, Repr

/-- What may come next. -/
inductive Expect where
  | value
  /-- Right after an opening bracket or brace. -/
  | firstOrEnd
  /-- The name of a member. -/
  | name
  /-- The colon after a name. -/
  | colon
  /-- After a value. -/
  | next
deriving DecidableEq, Repr

/-- What the items of an open value begin with. -/
def Frame.item : Frame → Expect
  | array => .value
  | object => .name

def Frame.closing : Frame → Char
  | array => ']'
  | object => '\x7d'

/-- What a character leads to where a value must begin. -/
inductive Opening where
  | opens (frame : Frame)
  /-- The rest of the input after a value that holds no others. -/
  | passed (rest : List Char)
  | fails (fault : Fault)

def Opening.ofRest : Except Fault (List Char) → Opening
  | .ok rest => passed rest
  | .error fault => fails fault

def opening (c : Char) (rest : List Char) : Opening :=
  if c = '[' then .opens .array
  else if c = '\x7b' then .opens .object
  else if c = '"' then .ofRest (Text.skip rest)
  else if c = 'n' then .ofRest (expectWord "ull".toList rest)
  else if c = 't' then .ofRest (expectWord "rue".toList rest)
  else if c = 'f' then .ofRest (expectWord "alse".toList rest)
  else if c = '-' then .ofRest (Number.skipUnsigned rest)
  else if Decimal.isDigit c then .ofRest (Number.skipUnsigned (c :: rest))
  else .fails .malformed

/-- Passes over what is left of the open values, innermost first, and of one value to come unless
`next` is expected. A round takes at least one character, except for the round that finds the first
item of an array or object; so twice the length of the input bounds the rounds. -/
def skipFrom : Nat → Expect → List Frame → List Char → Except Fault (List Char)
  | 0, _, _, _ => .error .malformed
  | _, .next, [], cs => .ok cs
  | fuel + 1, expect, frames, cs =>
    match dropSpace cs with
    | [] => .error .truncated
    | c :: rest =>
      match expect, frames with
      | .colon, _ => if c = ':' then skipFrom fuel .value frames rest else .error .malformed
      | .name, _ =>
        if c = '"' then
          match Text.skip rest with
          | .ok rest => skipFrom fuel .colon frames rest
          | .error fault => .error fault
        else .error .malformed
      | .next, frame :: outer =>
        if c = ',' then skipFrom fuel frame.item frames rest
        else if c = frame.closing then skipFrom fuel .next outer rest
        else .error .malformed
      | .firstOrEnd, frame :: outer =>
        if c = frame.closing then skipFrom fuel .next outer rest
        else skipFrom fuel frame.item frames (c :: rest)
      | _, _ =>
        match opening c rest with
        | .opens frame => skipFrom fuel .firstOrEnd (frame :: frames) rest
        | .passed rest => skipFrom fuel .next frames rest
        | .fails fault => .error fault

/-- Passes over one value. -/
def skip (cs : List Char) : Except Fault (List Char) :=
  skipFrom (2 * cs.length + 2) .value [] cs

end Latch.Json
