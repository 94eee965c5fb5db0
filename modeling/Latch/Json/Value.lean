import Latch.Text.Decimal
import Latch.Text.Hex
import Latch.Text.Word

/-!
# JSON values

* `Json` — a value, with the members of objects in the order in which they are written;
* `Json.compact` — the text without any space;
* `Json.pretty` — the text over several lines, indented by two spaces for each level.
-/

namespace Latch

inductive Json where
  | null
  | boolean (b : Bool)
  | integer (n : Int)
  | text (s : String)
  | array (items : List Json)
  | object (members : List (String × Json))

namespace Json

/-! ## Strings -/

/-- Writes a character of a string. Quotation marks, backslashes and control characters are
escaped. -/
def escapeChar (c : Char) : List Char :=
  match c with
  | '"' => ['\\', '"']
  | '\\' => ['\\', '\\']
  | '\x08' => ['\\', 'b']
  | '\x0c' => ['\\', 'f']
  | '\n' => ['\\', 'n']
  | '\r' => ['\\', 'r']
  | '\t' => ['\\', 't']
  | c =>
    if c.toNat < 0x20 then
      ['\\', 'u', '0', '0', Hex.lower (c.toNat / 16), Hex.lower (c.toNat % 16)]
    else [c]

def quote (s : String) : List Char := '"' :: s.toList.flatMap escapeChar ++ ['"']

def ofOption : Option String → Json
  | some s => text s
  | none => null

/-- An object whose members are all texts. -/
def ofTexts (members : List (String × String)) : Json :=
  object (members.map fun (name, value) => (name, text value))

/-! ## Without spaces -/

mutual

def compact : Json → List Char
  | null => "null".toList
  | boolean b => (boolText b).toList
  | integer n => Decimal.int n
  | text s => quote s
  | array items => '[' :: compactItems items ++ [']']
  | object members => '\x7b' :: compactMembers members ++ ['\x7d']

def compactItems : List Json → List Char
  | [] => []
  | [item] => item.compact
  | item :: rest => item.compact ++ ',' :: compactItems rest

def compactMembers : List (String × Json) → List Char
  | [] => []
  | [(name, value)] => quote name ++ ':' :: value.compact
  | (name, value) :: rest => quote name ++ ':' :: value.compact ++ ',' :: compactMembers rest

end

/-! ## Over several lines -/

/-- A line end and the indentation of a level. -/
def newLine (level : Nat) : List Char := '\n' :: List.replicate (2 * level) ' '

mutual

/-- The text of a value that begins on a line of some level. -/
def prettyAt (level : Nat) : Json → List Char
  | null => "null".toList
  | boolean b => (boolText b).toList
  | integer n => Decimal.int n
  | text s => quote s
  | array [] => "[]".toList
  | array items => '[' :: prettyItems (level + 1) items ++ newLine level ++ [']']
  | object [] => "\x7b\x7d".toList
  | object members => '\x7b' :: prettyMembers (level + 1) members ++ newLine level ++ ['\x7d']

def prettyItems (level : Nat) : List Json → List Char
  | [] => []
  | [item] => newLine level ++ item.prettyAt level
  | item :: rest => newLine level ++ item.prettyAt level ++ ',' :: prettyItems level rest

def prettyMembers (level : Nat) : List (String × Json) → List Char
  | [] => []
  | [(name, value)] => newLine level ++ quote name ++ ": ".toList ++ value.prettyAt level
  | (name, value) :: rest =>
    newLine level ++ quote name ++ ": ".toList ++ value.prettyAt level
      ++ ',' :: prettyMembers level rest

end

def pretty (json : Json) : List Char := json.prettyAt 0

end Json

end Latch
