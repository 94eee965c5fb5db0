import Latch.Text.Hex

/-!
# TOML strings

A string is written in one of four forms: between quotation marks with escapes (basic), between
apostrophes without (literal), and both also over several lines between threefold marks. Reading a
form is a run of an automaton over the characters after the opening mark:

* `Text.Form` — what an automaton does with a character in a state;
* `Text.Form.run` — runs it up to the closing mark and returns the text and what follows;
* `Text.basic`, `Text.literal`, `Text.multilineBasic`, `Text.multilineLiteral` — the four forms;
* `Text.read?` — tells them apart by their opening marks.
-/

namespace Latch.Toml

/-- A space or a tab. -/
def isBlank (c : Char) : Bool := c = ' ' || c = '\t'

/-- A character that may stand for itself: any but the control characters, of which the tab is
allowed. -/
def isPlain (c : Char) : Bool := c = '\t' || (0x20 ≤ c.toNat && c.toNat ≠ 0x7f)

namespace Text

/-! ## Automata -/

inductive Step (σ : Type) where
  /-- Adds characters to the text and goes on. -/
  | go (out : List Char) (next : σ)
  /-- Ends the string at this character, the last one of the closing mark. -/
  | close (out : List Char)
  /-- Ends the string before this character. -/
  | closed (out : List Char)
  | refuse

structure Form (σ : Type) where
  step : σ → Char → Step σ
  /-- The last characters of the text, if the string is complete where the input ends. -/
  atEnd : σ → Option (List Char)

/-- Runs a form from a state; returns the text and the rest of the input. -/
def Form.run {σ : Type} (form : Form σ) : σ → List Char → Option (List Char × List Char)
  | state, [] => (form.atEnd state).map fun out => (out, [])
  | state, c :: rest =>
    match form.step state c with
    | .go out next => (form.run next rest).map fun (text, rest) => (out ++ text, rest)
    | .close out => some (out, rest)
    | .closed out => some (out, c :: rest)
    | .refuse => none

/-! ## Escapes -/

/-- The character of a code; codes of surrogates have none. -/
def charOfCode? (code : Nat) : Option Char :=
  if code.isValidChar then some (Char.ofNat code) else none

/-- The character that a letter after a backslash stands for. -/
def escaped? : Char → Option Char
  | 'b' => some '\x08'
  | 't' => some '\t'
  | 'n' => some '\n'
  | 'f' => some '\x0c'
  | 'r' => some '\r'
  | '"' => some '"'
  | '\\' => some '\\'
  | _ => none

/-- Digits of a code that follow `u` and `U`. -/
def codeLength? : Char → Option Nat
  | 'u' => some 4
  | 'U' => some 8
  | _ => none

/-! ## One line -/

def literal : Form Unit where
  step _ c := if c = '\'' then .close [] else if isPlain c then .go [c] () else .refuse
  atEnd _ := none

inductive BasicState where
  | plain
  /-- After a backslash. -/
  | escape
  /-- Within a code: the digits that are missing and the value so far. -/
  | code (left value : Nat)
deriving DecidableEq, Repr

/-- Takes one digit of a code. -/
def codeStep {σ : Type} (plain : σ) (code : Nat → Nat → σ) (left value : Nat) (c : Char) : Step σ :=
  match Hex.value? c with
  | none => .refuse
  | some digit =>
    let value := value * 16 + digit
    if left ≤ 1 then
      match charOfCode? value with
      | some decoded => .go [decoded] plain
      | none => .refuse
    else .go [] (code (left - 1) value)

/-- Takes the character after a backslash. -/
def escapeStep {σ : Type} (plain : σ) (code : Nat → Nat → σ) (c : Char) : Step σ :=
  match escaped? c, codeLength? c with
  | some decoded, _ => .go [decoded] plain
  | none, some length => .go [] (code length 0)
  | none, none => .refuse

def basic : Form BasicState where
  step
    | .plain, c =>
      if c = '"' then .close []
      else if c = '\\' then .go [] .escape
      else if isPlain c then .go [c] .plain
      else .refuse
    | .escape, c => escapeStep .plain .code c
    | .code left value, c => codeStep .plain .code left value c
  atEnd _ := none

/-! ## Several lines

Within threefold marks one or two marks stand for themselves, also right before the closing ones. A
line ends with a line feed, or a carriage return and a line feed, and is read as a line feed. -/

inductive MultilineState where
  | plain
  /-- After a number of marks in a row. -/
  | marks (n : Nat)
  /-- After a carriage return. -/
  | carriage
  | escape
  | code (left value : Nat)
  /-- After a backslash and blanks: the line must end. -/
  | lineEnd
  /-- The same after a carriage return. -/
  | lineEndCarriage
  /-- After a backslash at the end of a line: blanks and line ends are passed over. -/
  | folding
  /-- The same after a carriage return. -/
  | foldingCarriage
deriving DecidableEq, Repr

open MultilineState in
/-- Takes a character that no mark or escape precedes. -/
def contentStep (mark : Char) (hasEscapes : Bool) (before : List Char) (c : Char) :
    Step MultilineState :=
  if c = mark then .go before (marks 1)
  else if c = '\n' then .go (before ++ [c]) plain
  else if c = '\r' then .go before carriage
  else if hasEscapes && c = '\\' then .go before escape
  else if isPlain c then .go (before ++ [c]) plain
  else .refuse

/-- Takes a character after marks: five close the string, and three do before anything else. -/
def marksStep (mark : Char) (hasEscapes : Bool) (n : Nat) (c : Char) : Step MultilineState :=
  if c = mark then
    if n = 4 then .close [mark, mark] else .go [] (.marks (n + 1))
  else if 3 ≤ n then .closed (List.replicate (n - 3) mark)
  else contentStep mark hasEscapes (List.replicate n mark) c

/-- Takes a character while line ends are passed over. -/
def foldStep (mark : Char) (c : Char) : Step MultilineState :=
  if isBlank c || c = '\n' then .go [] .folding
  else if c = '\r' then .go [] .foldingCarriage
  else contentStep mark true [] c

open MultilineState in
def multiline (mark : Char) (hasEscapes : Bool) : Form MultilineState where
  step
    | plain, c => contentStep mark hasEscapes [] c
    | marks n, c => marksStep mark hasEscapes n c
    | carriage, c => if c = '\n' then .go [c] plain else .refuse
    | escape, c =>
      if isBlank c then .go [] lineEnd
      else if c = '\n' then .go [] folding
      else if c = '\r' then .go [] lineEndCarriage
      else escapeStep plain code c
    | code left value, c => codeStep plain code left value c
    | lineEnd, c =>
      if isBlank c then .go [] lineEnd
      else if c = '\n' then .go [] folding
      else if c = '\r' then .go [] lineEndCarriage
      else .refuse
    | lineEndCarriage, c => if c = '\n' then .go [] folding else .refuse
    | folding, c => foldStep mark c
    | foldingCarriage, c => if c = '\n' then .go [] folding else .refuse
  atEnd
    | marks n => if 3 ≤ n then some (List.replicate (n - 3) mark) else none
    | _ => none

def multilineBasic : Form MultilineState := multiline '"' true

def multilineLiteral : Form MultilineState := multiline '\'' false

/-! ## Any form -/

/-- A line end right after the opening marks does not count. -/
def dropLineEnd : List Char → List Char
  | '\n' :: rest => rest
  | '\r' :: '\n' :: rest => rest
  | rest => rest

/-- Reads a string of one line; such strings are also names. -/
def readLine? : List Char → Option (List Char × List Char)
  | '"' :: rest => basic.run .plain rest
  | '\'' :: rest => literal.run () rest
  | _ => none

def read? (cs : List Char) : Option (List Char × List Char) :=
  match cs with
  | '"' :: '"' :: '"' :: rest => multilineBasic.run .plain (dropLineEnd rest)
  | '\'' :: '\'' :: '\'' :: rest => multilineLiteral.run .plain (dropLineEnd rest)
  | _ => readLine? cs

end Text

end Latch.Toml
