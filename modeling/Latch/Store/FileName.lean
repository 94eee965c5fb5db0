import Latch.Machine.Path
import Latch.Text.Hex

/-!
# File names of stores

A store's path is usually the path of its file. A path that begins with `file:` is a URI instead: it
may name the local host, its file ends before a query or a fragment, and a percent sign with two
digits stands for a byte. The query holds options, among them the mode in which the store is opened.

* `Target` — what a path stands for;
* `FileName.Opening` — how a store is to be opened;
* `FileName.target` — reads a path.
-/

namespace Latch.Store

/-- What the path of a store stands for. -/
inductive Target where
  /-- The path is refused, or leads to a store that could only be read. -/
  | refused
  | memory
  /-- A file. It is made if it is missing, unless it must be there. -/
  | file (path : Path) (mustExist : Bool)
deriving DecidableEq, Repr

namespace FileName

/-- The name of a store without a file. -/
def memoryName : String := ":memory:"

/-! ## Bytes -/

/-- Replaces percent signs with two digits by their bytes; the zero byte ends the text. -/
def decode : List Char → List UInt8
  | '%' :: a :: b :: rest =>
    match Hex.value? a, Hex.value? b with
    | some high, some low =>
      if high = 0 ∧ low = 0 then [] else UInt8.ofNat (high * 16 + low) :: decode rest
    | _, _ => '%'.toString.toUTF8.data.toList ++ decode (a :: b :: rest)
  | c :: rest => c.toString.toUTF8.data.toList ++ decode rest
  | [] => []

def decodeText? (cs : List Char) : Option String := String.fromUTF8? ⟨(decode cs).toArray⟩

/-! ## Options -/

inductive Mode where
  | readOnly
  | readWrite
  | create
  | memory
deriving DecidableEq, Repr

namespace Mode

def ofText? : String → Option Mode
  | "ro" => some readOnly
  | "rw" => some readWrite
  | "rwc" => some create
  | "memory" => some memory
  | _ => none

/-- How much a mode allows. A store in memory may be opened in any other mode instead. -/
def rank : Mode → Nat
  | readOnly => 0
  | readWrite => 1
  | create => 2
  | memory => 3

/-- Whether another mode may take the place of this one. -/
def admits (mode next : Mode) : Bool := next = memory || next.rank ≤ mode.rank

end Mode

/-- How a store is to be opened. -/
structure Opening where
  mode : Mode
  /-- The name of the layer between the store and the files. -/
  layer : String
deriving DecidableEq, Repr

namespace Opening

def standard : Opening := ⟨.create, "unix"⟩

/-- The layers that work on files. They differ in how they lock them. -/
def fileLayers : List String := ["unix", "unix-none", "unix-dotfile", "unix-excl"]

/-- Takes an option. Those that are not known are passed over; a store that never changes could only
be read. -/
def takeOption? (o : Opening) : String × String → Option Opening
  | ("vfs", layer) => some { o with layer }
  | ("cache", text) => if text = "shared" || text = "private" then some o else none
  | ("mode", text) => do
    let mode ← Mode.ofText? text
    if o.mode.admits mode then some { o with mode } else none
  | ("immutable", text) => if text = "0" then some o else none
  | _ => some o

/-- Where a store with a name is, if it is opened so. -/
def target (o : Opening) (name : String) : Target :=
  if o.layer = "memdb" then .memory
  else if o.layer ∉ fileLayers then .refused
  else if name = "" || name = memoryName then .memory
  else match o.mode with
    | .memory => .memory
    | .readOnly => .refused
    | .readWrite => .file ⟨name⟩ true
    | .create => .file ⟨name⟩ false

end Opening

/-- An option of a query with its value, which may be empty. -/
def option (cs : List Char) : String × String :=
  ((decodeText? (cs.takeWhile (· ≠ '='))).getD "",
    (decodeText? ((cs.dropWhile (· ≠ '=')).drop 1)).getD "")

/-- The options of a query. One without a name says nothing. -/
def options (query : List Char) : List (String × String) :=
  (((String.ofList query).splitOn "&").map fun part => option part.toList).filter (·.1 ≠ "")

/-! ## Paths -/

/-- Drops an empty host or the local one. -/
def dropHost? : List Char → Option (List Char)
  | '/' :: '/' :: rest =>
    let host := rest.takeWhile (· ≠ '/')
    if host = [] ∨ host = "localhost".toList then some (rest.dropWhile (· ≠ '/')) else none
  | cs => some cs

/-- Reads what follows the scheme of a URI. -/
def uriTarget? (cs : List Char) : Option Target := do
  -- parts are told apart before they are decoded, so a mark that is encoded separates nothing
  let cs := (← dropHost? cs).takeWhile (· ≠ '#')
  let query := (cs.dropWhile (· ≠ '?')).drop 1
  let opening ← (options query).foldlM Opening.takeOption? .standard
  return opening.target (← decodeText? (cs.takeWhile (· ≠ '?')))

def target (path : Path) : Target :=
  match path.text.toList with
  | 'f' :: 'i' :: 'l' :: 'e' :: ':' :: rest => (uriTarget? rest).getD .refused
  | _ => Opening.standard.target path.text

end FileName

end Latch.Store
