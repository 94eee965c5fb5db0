import Latch.Machine.Environment
import Latch.Machine.Files
import Latch.Text.Alphanumeric
import Latch.Text.Blank
import Latch.Text.Word

/-!
# Variable files

A file `.env` sets variables that are not set yet. It is looked for in the current directory and then
in the directories above it, and the first one counts. A line holds a name, an equals sign and a value;
quotes, escapes, comments and references to other variables are understood. Reading ends at the first
line that is not well-formed; what was set before stays set.

* `VariableFile.logicalLines` — joins the lines of a quoted value and drops comments;
* `VariableFile.readValue?` — a value without its quotes and with its references replaced;
* `VariableFile.apply` — the environment after all lines of a text;
* `VariableFile.load` — the environment after the first file in a directory or above it.
-/

namespace Latch.VariableFile

open Latch.Text (isAlphanumeric isBlank trim)

/-! ## Lines -/

/-- Where a line stands with regard to its quotes. -/
inductive Quoting where
  | complete
  /-- After a blank, where a comment may begin. -/
  | blank
  | escape
  | strong
  | strongEscape
  | weak
  | weakEscape
deriving DecidableEq, Repr

/-- Takes a character outside quotes that starts no comment. -/
def Quoting.opened (c : Char) : Quoting :=
  if c = '\\' then .escape
  else if c = '"' then .weak
  else if c = '\'' then .strong
  else .complete

/-- Takes a character; none at the start of a comment. -/
def Quoting.step : Quoting → Char → Option Quoting
  | .blank, c => if c = '#' then none else some (.opened c)
  | .escape, _ => some .complete
  | .complete, c =>
    if isBlank c && c ≠ '\n' && c ≠ '\r' then some .blank else some (.opened c)
  | .weak, c =>
    if c = '\\' then some .weakEscape else if c = '"' then some .complete else some .weak
  | .weakEscape, _ => some .weak
  | .strong, c =>
    if c = '\\' then some .strongEscape else if c = '\'' then some .complete else some .strong
  | .strongEscape, _ => some .strong

/-- Follows a line; gives what stands before a comment, and how the line ends unless that is in a
comment. -/
def follow : Quoting → List Char → List Char × Option Quoting
  | quoting, [] => ([], some quoting)
  | quoting, c :: rest =>
    match quoting.step c with
    | none => ([], none)
    | some quoting =>
      let (kept, final) := follow quoting rest
      (c :: kept, final)

/-- Cuts a text behind every line feed. -/
def physicalLines : List Char → List (List Char)
  | [] => []
  | c :: rest =>
    if c = '\n' then [c] :: physicalLines rest
    else match physicalLines rest with
      | [] => [[c]]
      | line :: lines => (c :: line) :: lines

def isComment (line : List Char) : Bool := (line.dropWhile isBlank).head? = some '#'

/-- Joins lines while a quote is open. The last item is missing if the text ends within a quote, or
where a line would have to go on. -/
def logicalLines (quoting : Quoting) (seen : List Char) :
    List (List Char) → List (Option (List Char))
  | [] => if quoting = .complete then [] else [none]
  | line :: rest =>
    if isComment (seen ++ line) then logicalLines .complete [] rest
    else match follow quoting line with
      | (kept, none) => some (seen ++ kept) :: logicalLines .complete [] rest
      | (kept, some .complete) => some (seen ++ kept) :: logicalLines .complete [] rest
      | (kept, some quoting) => logicalLines quoting (seen ++ kept) rest

/-! ## Values -/

inductive Quote where
  | bare
  /-- Between apostrophes: nothing is escaped and nothing replaced. -/
  | strong
  /-- Between quotation marks. -/
  | weak
deriving DecidableEq, Repr

/-- A reference that is being read, with the characters of its name so far, the last one first. -/
inductive Reference where
  | none
  | open (name : List Char)
  | braced (name : List Char)
deriving DecidableEq, Repr

structure Reading where
  quote : Quote
  /-- After a backslash. -/
  isEscaped : Bool
  reference : Reference
  /-- The characters of the value, the last one first. -/
  out : List Char
deriving DecidableEq, Repr

namespace Reading

def start : Reading := ⟨.bare, false, .none, []⟩

def push (r : Reading) (c : Char) : Reading := { r with out := c :: r.out }

/-- Replaces a reference by the value of its variable. -/
def replace (environment : Environment) (r : Reading) (name : List Char) : Reading :=
  let value := (environment.get? (String.ofList name.reverse)).getD ""
  { r with reference := .none, out := value.toList.reverse ++ r.out }

/-- Ends an open reference, if there is one. -/
def settle (environment : Environment) (r : Reading) : Reading :=
  match r.reference with
  | .open name => r.replace environment name
  | _ => r

/-- Takes a character after a backslash. -/
def takeEscaped? (r : Reading) (c : Char) : Option Reading :=
  let r := { r with isEscaped := false }
  if c = 'n' then some (r.push '\n')
  else if c ∈ ['\\', '\'', '"', '$', ' '] then some (r.push c)
  else none

/-- Takes a character within a reference. -/
def takeReferred (environment : Environment) (r : Reading) (c : Char) : Reading :=
  match r.reference with
  | .none => r.push c
  | .open name =>
    if isAlphanumeric c then { r with reference := .open (c :: name) }
    else if c = '\x7b' && name.isEmpty then { r with reference := .braced [] }
    else if c = '$' then { r.replace environment name with reference := .open [] }
    else (r.replace environment name).push c
  | .braced name =>
    if c = '\x7d' then r.replace environment name
    else { r with reference := .braced (c :: name) }

/-- Takes any other character; the value ends at a blank outside quotes. -/
def takePlain? (r : Reading) (c : Char) : Option Reading :=
  if c = '$' then some { r with reference := .open [] }
  else if c = '\\' then some { r with isEscaped := true }
  else match r.quote with
    | .weak => some (if c = '"' then { r with quote := .bare } else r.push c)
    | _ =>
      if c = '\'' then some { r with quote := .strong }
      else if c = '"' then some { r with quote := .weak }
      else if c = ' ' || c = '\t' then none
      else some (r.push c)

/-- The value, unless a quote or a reference is open. -/
def finish? (environment : Environment) (r : Reading) : Option (List Char) :=
  match r.quote, r.reference with
  | .bare, .braced _ => none
  | .bare, _ => some (r.settle environment).out.reverse
  | _, _ => none

end Reading

/-- Whether nothing but blanks and a comment follows. -/
def isTail (cs : List Char) : Bool :=
  match cs.dropWhile fun c => c = ' ' || c = '\t' with
  | [] => true
  | c :: _ => c = '#'

def readFrom? (environment : Environment) : Reading → List Char → Option (List Char)
  | r, [] => r.finish? environment
  | r, c :: rest =>
    if r.isEscaped then
      match r.takeEscaped? c with
      | some r => readFrom? environment r rest
      | none => none
    else if r.quote = .strong then
      readFrom? environment (if c = '\'' then { r with quote := .bare } else r.push c) rest
    else if r.reference ≠ .none then readFrom? environment (r.takeReferred environment c) rest
    else match r.takePlain? c with
      | some r => readFrom? environment r rest
      | none => if isTail rest then r.finish? environment else none

def readValue? (environment : Environment) (cs : List Char) : Option (List Char) :=
  readFrom? environment .start cs

/-! ## Entries -/

def isNameStart (c : Char) : Bool := c.isAlpha || c = '_'

def isNamePart (c : Char) : Bool := c.isAlphanum || c = '_' || c = '.'

/-- Reads a name and the blanks after it. -/
def name? (cs : List Char) : Option (List Char × List Char) :=
  match cs with
  | [] => none
  | c :: _ =>
    if isNameStart c then some (cs.takeWhile isNamePart, (cs.dropWhile isNamePart).dropWhile isBlank)
    else none

/-- Reads a name and the equals sign. The word `export` may stand in front, and is itself a name if
an equals sign follows. -/
def assignment? (cs : List Char) : Option (List Char × List Char) := do
  let (name, rest) ← name? cs
  match rest with
  | '=' :: value => return (name, value)
  | _ =>
    if name = "export".toList then
      let (name, rest) ← name? rest
      match rest with
      | '=' :: value => return (name, value)
      | _ => none
    else none

/-- What a line says: nothing, or the value of a variable. -/
inductive Entry where
  | nothing
  | variable (name value : String)
deriving DecidableEq, Repr

def entry? (environment : Environment) (line : List Char) : Option Entry :=
  let cs := trim line
  if cs.isEmpty || cs.head? = some '#' then some .nothing
  else do
    let (name, rest) ← assignment? cs
    let rest := rest.dropWhile isBlank
    let value ← if rest.head? = some '#' then some [] else readValue? environment rest
    return .variable (String.ofList name) (String.ofList value)

/-- Sets a variable unless it is set. -/
def setNew (environment : Environment) (name value : String) : Environment :=
  if (environment.get? name).isSome then environment else environment.set name value

/-- Goes through lines up to the first that is not well-formed. -/
def applyLines (environment : Environment) : List (Option (List Char)) → Environment
  | some line :: rest =>
    match entry? environment line with
    | some .nothing => applyLines environment rest
    | some (.variable name value) => applyLines (setNew environment name value) rest
    | none => environment
  | _ => environment

def apply (environment : Environment) (text : String) : Environment :=
  applyLines environment
    (logicalLines .complete [] (physicalLines (dropByteOrderMark text.toList)))

/-! ## The file -/

def fileName : String := ".env"

/-- A directory and all directories above it, the innermost one first. -/
def upwards : Location → List Location
  | [] => [[]]
  | name :: rest => (upwards rest).map (name :: ·) ++ [[]]

/-- Where a variable file may be. -/
def candidates (here : Location) : List Location := (upwards here).map (· ++ [fileName])

/-- The first file in one of the places; directories of that name are passed over. -/
def find? (files : Files) (here : Location) : Option Content :=
  -- a file that is found counts even if nothing can be read from it
  (candidates here).findSome? files.contentAt?

/-- Cuts bytes behind every line feed. -/
def byteLines : List UInt8 → List (List UInt8)
  | [] => []
  | b :: rest =>
    if b = 10 then [b] :: byteLines rest
    else match byteLines rest with
      | [] => [[b]]
      | line :: lines => (b :: line) :: lines

/-- The lines of a file up to the first that is no text. -/
def leadingText : Content → String
  | .text s => s
  | .bytes data =>
    String.join (((byteLines data).map fun line => String.fromUTF8? ⟨line.toArray⟩).takeWhile
      Option.isSome |>.map fun line => line.getD "")
  | .database _ => ""

/-- The environment after the file was read, if there is one. -/
def load (files : Files) (here : Location) (environment : Environment) : Environment :=
  match find? files here with
  | some content => apply environment (leadingText content)
  | none => environment

end Latch.VariableFile
