import Latch.Toml.Text

/-!
# Written TOML strings

A text is written in the plainest form that can hold it: on one line between quotation marks without
escapes, between apostrophes, over several lines in the same two ways, and last with escapes.

* `Style.of` — the form that is chosen for a text;
* `escape` — a text with escapes, as it stands between quotation marks;
* `quote` — the text with its marks.
-/

namespace Latch.Toml.Quoted

inductive Style where
  | basic
  | literal
  | multilineBasic
  | multilineLiteral
deriving DecidableEq, Repr

/-! ## The choice of a style -/

/-- A character that only an escape can stand for; tabs and line feeds are none. -/
def isControl (c : Char) : Bool :=
  (c.toNat < 0x20 && c ≠ '\t' && c ≠ '\n') || c.toNat = 0x7f

/-- The greatest number of marks in a row, when `row` of them have just been seen. -/
def longestRow (mark : Char) (row : Nat) : List Char → Nat
  | [] => row
  | c :: rest =>
    if c = mark then longestRow mark (row + 1) rest else max row (longestRow mark 0 rest)

def Style.of (s : List Char) : Style :=
  let hasControl := s.any isControl
  let hasEscape := hasControl || s.contains '\\'
  let hasNewline := s.contains '\n'
  if !hasEscape && !hasNewline && !s.contains '"' then .basic
  else if !hasControl && !hasNewline && !s.contains '\'' then .literal
  else if !hasEscape && longestRow '"' 0 s ≤ 2 then .multilineBasic
  else if !hasControl && longestRow '\'' 0 s ≤ 2 then .multilineLiteral
  else if hasNewline then .multilineBasic
  else .basic

/-! ## Escapes -/

/-- The letter that stands for a character after a backslash. A line feed has one although it stands
for itself where lines may end. -/
def letter? : Char → Option Char
  | '\x08' => some 'b'
  | '\t' => some 't'
  | '\n' => some 'n'
  | '\x0c' => some 'f'
  | '\r' => some 'r'
  | '\\' => some '\\'
  | _ => none

/-- A character below 256 as a code of four digits. -/
def code (c : Char) : List Char :=
  ['\\', 'u', '0', '0', Hex.upper (c.toNat / 16), Hex.upper (c.toNat % 16)]

/-- A character other than a mark. -/
def escapeChar (multiline : Bool) (c : Char) : List Char :=
  if multiline && c = '\n' then [c]
  else match letter? c with
    | some letter => ['\\', letter]
    | none => if isControl c then code c else [c]

/-- Writes a text between quotation marks. Marks within it are escaped, but over several lines two
in a row may stand for themselves; `row` counts those just written. -/
def escape (multiline : Bool) (row : Nat) : List Char → List Char
  | [] => []
  | c :: rest =>
    if c = '"' then
      if multiline && row < 2 then c :: escape multiline (row + 1) rest
      else '\\' :: c :: escape multiline 0 rest
    else escapeChar multiline c ++ escape multiline 0 rest

/-! ## The written text -/

/-- The line end after the opening marks, which is not part of the text. -/
def lead (s : List Char) : List Char := if s.contains '\n' then ['\n'] else []

def quote (s : List Char) : List Char :=
  match Style.of s with
  | .basic => '"' :: escape false 0 s ++ ['"']
  | .literal => '\'' :: s ++ ['\'']
  | .multilineBasic => "\"\"\"".toList ++ lead s ++ escape true 0 s ++ "\"\"\"".toList
  | .multilineLiteral => "'''".toList ++ lead s ++ s ++ "'''".toList

end Latch.Toml.Quoted
