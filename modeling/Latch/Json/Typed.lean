import Latch.Json.Skip

/-!
# Typed JSON reading

Values whose type is known in advance are read without an intermediate tree. What stands in the place
of an expected value decides on the fault: a well-formed value of another kind is a mismatch, and a
malformed one is malformed.

* `readBool`, `readText`, `readInteger`, `readNull`, `readOptional` — values without parts;
* `item`, `endItems` — the items of an array whose length is known;
* `readMembers` — the members of an object, in any order;
* `readAll?` — a whole text, which may end in spaces.
-/

namespace Latch.Json

/-! ## Values without parts -/

/-- The fault of a value that is not of the expected kind. Of an array or an object only the first
character is looked at. -/
def unexpected (c : Char) (rest : List Char) : Fault :=
  if c = '[' || c = '\x7b' then .mismatch
  else
    let scanned : Except Fault Unit :=
      if c = '"' then (Text.read rest).map fun _ => ()
      else if c = 'n' then (expectWord "ull".toList rest).map fun _ => ()
      else if c = 't' then (expectWord "rue".toList rest).map fun _ => ()
      else if c = 'f' then (expectWord "alse".toList rest).map fun _ => ()
      else if c = '-' || Decimal.isDigit c then (Number.scan (c :: rest)).map fun _ => ()
      else .error .malformed
    match scanned with
    | .ok () => .mismatch
    | .error fault => fault

def readBool (cs : List Char) : Except Fault (Bool × List Char) :=
  match dropSpace cs with
  | [] => .error .truncated
  | c :: rest =>
    if c = 't' then (expectWord "rue".toList rest).map fun rest => (true, rest)
    else if c = 'f' then (expectWord "alse".toList rest).map fun rest => (false, rest)
    else .error (unexpected c rest)

def readText (cs : List Char) : Except Fault (String × List Char) :=
  match dropSpace cs with
  | [] => .error .truncated
  | c :: rest =>
    if c = '"' then (Text.read rest).map fun (text, rest) => (String.ofList text, rest)
    else .error (unexpected c rest)

/-- Reads an integer that passes a test of its range. -/
def readInteger (fits : Int → Bool) (cs : List Char) : Except Fault (Int × List Char) :=
  match dropSpace cs with
  | [] => .error .truncated
  | c :: rest =>
    if c = '-' || Decimal.isDigit c then
      match Number.scan (c :: rest) with
      | .error fault => .error fault
      | .ok (number, rest) =>
        match number.toInt? with
        | some n => if fits n then .ok (n, rest) else .error .mismatch
        | none => .error .mismatch
    else .error (unexpected c rest)

def readNull (cs : List Char) : Except Fault (Unit × List Char) :=
  match dropSpace cs with
  | [] => .error .truncated
  | c :: rest =>
    if c = 'n' then (expectWord "ull".toList rest).map fun rest => ((), rest)
    else .error (unexpected c rest)

/-- Reads `null` or a value. -/
def readOptional {α : Type} (read : Reader α) (cs : List Char) :
    Except Fault (Option α × List Char) :=
  match dropSpace cs with
  | 'n' :: rest => (expectWord "ull".toList rest).map fun rest => (none, rest)
  | cs => (read cs).map fun (value, rest) => (some value, rest)

/-! ## Arrays -/

/-- Reads the next item of an array with the comma before it; the array must not end here. -/
def item {α : Type} (isFirst : Bool) (read : Reader α) (cs : List Char) :
    Except Fault (α × List Char) :=
  match dropSpace cs with
  | [] => .error .truncated
  | c :: rest =>
    if c = ']' then .error .mismatch
    else if isFirst then read (c :: rest)
    else if c = ',' then
      match dropSpace rest with
      | [] => .error .truncated
      | d :: rest => if d = ']' then .error .malformed else read (d :: rest)
    else .error .malformed

/-- Reads the end of an array. -/
def endItems (cs : List Char) : Except Fault (List Char) :=
  match dropSpace cs with
  | [] => .error .truncated
  | c :: rest => if c = ']' then .ok rest else .error .malformed

/-! ## Objects -/

/-- Reads the colon after a name. -/
def colon (cs : List Char) : Except Fault (List Char) :=
  match dropSpace cs with
  | [] => .error .truncated
  | c :: rest => if c = ':' then .ok rest else .error .malformed

/-- Finds the quotation mark of the next name and returns what follows it; none at the end of the
object, with what follows the end. -/
def nextName (isFirst : Bool) (cs : List Char) : Except Fault (Bool × List Char) :=
  match dropSpace cs with
  | [] => .error .truncated
  | c :: rest =>
    if c = '\x7d' then .ok (false, rest)
    else if isFirst then if c = '"' then .ok (true, rest) else .error .malformed
    else if c = ',' then
      match dropSpace rest with
      | [] => .error .truncated
      | d :: rest => if d = '"' then .ok (true, rest) else .error .malformed
    else .error .malformed

/-- Reads the members of an object after its opening brace. What is known so far and the name decide
how the rest of a member, from its colon on, is read. -/
def readMembers {σ : Type} (member : String → σ → Reader σ) :
    Nat → (isFirst : Bool) → σ → Reader σ
  | 0, _, _, _ => .error .malformed
  | fuel + 1, isFirst, known, cs =>
    match nextName isFirst cs with
    | .error fault => .error fault
    | .ok (false, rest) => .ok (known, rest)
    | .ok (true, rest) =>
      match Text.read rest with
      | .error fault => .error fault
      | .ok (name, rest) =>
        match member (String.ofList name) known rest with
        | .error fault => .error fault
        | .ok (known, rest) => readMembers member fuel false known rest

/-- Reads the value of a member. -/
def memberValue {α : Type} (read : Reader α) (cs : List Char) : Except Fault (α × List Char) :=
  match colon cs with
  | .error fault => .error fault
  | .ok rest => read rest

/-- Reads a member into a field, which must not have been given before. -/
def field {α σ : Type} (given : Option α) (read : Reader α) (store : α → σ) (cs : List Char) :
    Except Fault (σ × List Char) :=
  if given.isSome then .error .mismatch
  else (memberValue read cs).map fun (value, rest) => (store value, rest)

/-- Passes over a member that nobody knows. -/
def skipMember {σ : Type} (known : σ) (cs : List Char) : Except Fault (σ × List Char) :=
  match colon cs with
  | .error fault => .error fault
  | .ok rest => (skip rest).map fun rest => (known, rest)

/-- Reads a record that is written as an array of its fields or as an object. -/
def readRecord {α σ : Type} (items : Reader α) (member : String → σ → Reader σ) (nothing : σ)
    (finish : σ → Option α) (cs : List Char) : Except Fault (α × List Char) :=
  match dropSpace cs with
  | [] => .error .truncated
  | c :: rest =>
    if c = '[' then
      match items rest with
      | .error fault => .error fault
      | .ok (value, rest) => (endItems rest).map fun rest => (value, rest)
    else if c = '\x7b' then
      match readMembers member (rest.length + 1) true nothing rest with
      | .error fault => .error fault
      | .ok (known, rest) =>
        match finish known with
        | some value => .ok (value, rest)
        | none => .error .mismatch
    else .error (unexpected c rest)

/-! ## Whole texts -/

def readAll {α : Type} (read : Reader α) (text : String) : Except Fault α :=
  match read text.toList with
  | .error fault => .error fault
  | .ok (value, rest) => if (dropSpace rest).isEmpty then .ok value else .error .malformed

end Latch.Json
