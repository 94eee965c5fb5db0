import Latch.Toml.Moment
import Latch.Toml.Number
import Latch.Toml.Text
import Latch.Toml.Value

/-!
# TOML lines

A document is a sequence of entries and headers, each of which ends with its line. This module reads
them; what they mean together is in `Latch.Toml.Document`.

* `Toml.key?` — a dotted key as the list of its parts;
* `Toml.value?` — a value; a braced table becomes the table that its entries make;
* `Line`, `lines?` — the lines of a document that say anything.

A reader takes the input and returns what it has read together with the rest.
-/

namespace Latch.Toml

/-- How deep values may be nested, and how many parts a key may have. -/
def depthLimit : Nat := 79

/-! ## Blanks, comments and line ends -/

def dropBlanks (cs : List Char) : List Char := cs.dropWhile isBlank

def newline? : List Char → Option (List Char)
  | '\n' :: rest => some rest
  | '\r' :: '\n' :: rest => some rest
  | _ => none

/-- Drops a comment, if there is one, up to the end of its line or a character that may not stand
in it. -/
def dropComment : List Char → List Char
  | '#' :: rest => rest.dropWhile isPlain
  | cs => cs

/-- Reads what may follow on the line: blanks, a comment, and the line end or the end of all. -/
def lineEnd? (cs : List Char) : Option (List Char) :=
  match dropComment (dropBlanks cs) with
  | [] => some []
  | rest => newline? rest

/-- Drops blanks, comments and line ends. A comment without a line end is left in front. -/
def dropLines : Nat → List Char → List Char
  | 0, cs => cs
  | fuel + 1, cs =>
    match dropBlanks cs with
    | '#' :: rest =>
      match newline? (dropComment ('#' :: rest)) with
      | some rest => dropLines fuel rest
      | none => '#' :: rest
    | rest =>
      match newline? rest with
      | some rest => dropLines fuel rest
      | none => rest

/-- Reads one character. -/
def mark? (c : Char) : List Char → Option (List Char)
  | d :: rest => if d = c then some rest else none
  | [] => none

/-! ## Keys -/

def isBareKey (c : Char) : Bool :=
  ('a' ≤ c && c ≤ 'z') || ('A' ≤ c && c ≤ 'Z') || Decimal.isDigit c || c = '_' || c = '-'

/-- Reads one part of a key. -/
def part? (cs : List Char) : Option (String × List Char) :=
  match Text.readLine? cs with
  | some (text, rest) => some (String.ofList text, rest)
  | none =>
    match cs.takeWhile isBareKey with
    | [] => none
    | name => some (String.ofList name, cs.dropWhile isBareKey)

def parts? : Nat → List Char → Option (List String × List Char)
  | 0, _ => none
  | fuel + 1, cs => do
    let (part, rest) ← part? (dropBlanks cs)
    match dropBlanks rest with
    | '.' :: rest =>
      let (parts, rest) ← parts? fuel rest
      return (part :: parts, rest)
    | rest => return ([part], rest)

/-- Reads a dotted key with the blanks around it. -/
def key? (cs : List Char) : Option (List String × List Char) :=
  parts? depthLimit cs

/-! ## Tables that entries make -/

/-- Adds a value under a dotted key. The tables that the key runs through are made where they are
missing; a table is open to further keys only if it was made like that, and a table that a header
implies may be run through but not added to. -/
def addAt? : List String → Value → Entries → Option Entries
  | [], _, _ => none
  | [name], value, entries => entries.add? name value
  | part :: next :: rest, value, entries =>
    let below := addAt? (next :: rest) value
    match entries.get? part with
    | none => (below []).map fun inner => entries ++ [(part, .table .dotted inner)]
    | some (.table .dotted inner) =>
      (below inner).map fun inner => entries.set part (.table .dotted inner)
    | some (.table .implied inner) =>
      if rest.isEmpty then none
      else (below inner).map fun inner => entries.set part (.table .implied inner)
    | some (.tables items) =>
      if rest.isEmpty then none
      else (Entries.changeLast? below items).map fun items => entries.set part (.tables items)
    | some _ => none

/-- Adds the values of several keys in their order. -/
def addAll? (additions : List (List String × Value)) (entries : Entries) : Option Entries :=
  additions.foldlM (fun entries (key, value) => addAt? key value entries) entries

/-! ## Values -/

/-- Reads the items of an array after its opening bracket. -/
def items? (item? : List Char → Option (Value × List Char)) :
    Nat → List Char → Option (List Value × List Char)
  | 0, _ => none
  | fuel + 1, cs =>
    match dropLines cs.length cs with
    | ']' :: rest => some ([], rest)
    | cs => do
      let (item, rest) ← item? cs
      match dropLines rest.length rest with
      | ']' :: rest => return ([item], rest)
      | ',' :: rest =>
        let (items, rest) ← items? item? fuel rest
        return (item :: items, rest)
      | _ => none

/-- Reads a key, its value, and the blanks around them. -/
def entry? (item? : List Char → Option (Value × List Char)) (cs : List Char) :
    Option ((List String × Value) × List Char) := do
  let (key, rest) ← key? cs
  let (value, rest) ← item? (dropBlanks (← mark? '=' rest))
  return ((key, value), dropBlanks rest)

/-- Reads the entries of a braced table, of which there is at least one, up to the closing brace. -/
def bracedEntries? (item? : List Char → Option (Value × List Char)) :
    Nat → List Char → Option (List (List String × Value) × List Char)
  | 0, _ => none
  | fuel + 1, cs => do
    let (entry, rest) ← entry? item? cs
    match rest with
    | '\x7d' :: rest => return ([entry], rest)
    | ',' :: rest =>
      let (entries, rest) ← bracedEntries? item? fuel rest
      return (entry :: entries, rest)
    | _ => none

/-- Reads a braced table after its opening brace. -/
def braced? (item? : List Char → Option (Value × List Char)) (cs : List Char) :
    Option (Value × List Char) :=
  match dropBlanks cs with
  | '\x7d' :: rest => some (.table .braced [], rest)
  | cs => do
    let (additions, rest) ← bracedEntries? item? (cs.length + 1) cs
    return (.table .braced (← addAll? additions []), rest)

/-- Reads a date or a number. -/
def numeric? (cs : List Char) : Option (Value × List Char) :=
  match Moment.read? cs with
  | some rest => some (.dateTime, rest)
  | none =>
    match Number.float? cs with
    | some rest => some (.float, rest)
    | none => (Number.integer? cs).map fun (n, rest) => (.integer n, rest)

/-- Reads a value that holds no other values. -/
def scalar? (cs : List Char) : Option (Value × List Char) :=
  match cs with
  | 't' :: 'r' :: 'u' :: 'e' :: rest => some (.boolean true, rest)
  | 'f' :: 'a' :: 'l' :: 's' :: 'e' :: rest => some (.boolean false, rest)
  | '"' :: _ | '\'' :: _ => (Text.read? cs).map fun (text, rest) => (.string (String.ofList text), rest)
  | _ => numeric? cs

/-- Reads a value in which arrays and braced tables are nested at most `depth` deep. -/
def value? : (depth : Nat) → List Char → Option (Value × List Char)
  | 0, cs => scalar? cs
  | depth + 1, cs =>
    match cs with
    | '[' :: rest =>
      (items? (value? depth) (rest.length + 1) rest).map fun (items, rest) => (.array items, rest)
    | '\x7b' :: rest => braced? (value? depth) rest
    | _ => scalar? cs

/-! ## Lines -/

inductive Line where
  /-- A key and its value. -/
  | entry (key : List String) (value : Value)
  /-- The header of a table. -/
  | header (path : List String)
  /-- The header of one more table of an array. -/
  | itemHeader (path : List String)

/-- Reads a header after its first bracket. -/
def header? (cs : List Char) : Option (Line × List Char) :=
  match cs with
  | '[' :: rest => do
    let (path, rest) ← key? rest
    return (.itemHeader path, ← mark? ']' (← mark? ']' rest))
  | _ => do
    let (path, rest) ← key? cs
    return (.header path, ← mark? ']' rest)

/-- Reads a header or an entry with the end of its line. -/
def line? (cs : List Char) : Option (Line × List Char) :=
  match cs with
  | '[' :: rest => do
    let (line, rest) ← header? rest
    return (line, ← lineEnd? rest)
  | _ => do
    let ((key, value), rest) ← entry? (value? depthLimit) cs
    return (.entry key value, ← lineEnd? rest)

def linesFrom? : Nat → List Char → Option (List Line)
  | 0, _ => none
  | fuel + 1, cs =>
    match dropLines cs.length cs with
    | [] => some []
    | '#' :: rest => if (rest.dropWhile isPlain).isEmpty then some [] else none
    | cs => do
      let (line, rest) ← line? cs
      return line :: (← linesFrom? fuel rest)

/-- The lines of a text that say anything. -/
def lines? (cs : List Char) : Option (List Line) := linesFrom? (cs.length + 1) cs

end Latch.Toml
