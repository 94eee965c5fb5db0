import Latch.Machine.Path
import Latch.Store.Basic

/-!
# Files

The files that the program sees: a tree of directories and files, held as a map from locations to
nodes. A location is the list of names from the root; the root itself is always a directory.

* `Files.resolve?` — the location that a path names;
* `Files.readText?`, `Files.writeText?`, `Files.remove?`, `Files.makeDirectories` — the operations on
  it; `none` and `false` tell that one could not be carried out.
-/

namespace Latch

abbrev Location := List String

inductive Content where
  | text (s : String)
  /-- Bytes that are no text. -/
  | bytes (data : List UInt8)
  /-- The tables of a record store. -/
  | database (tables : Store.Tables)
deriving DecidableEq

/-- Bytes in UTF-8 are taken as the text that they encode. -/
def Content.ofBytes (data : List UInt8) : Content :=
  match String.fromUTF8? ⟨data.toArray⟩ with
  | some s => .text s
  | none => .bytes data

inductive Node where
  | directory
  | file (content : Content)
deriving DecidableEq

structure Files where
  nodes : List (Location × Node)
deriving DecidableEq, Inhabited

namespace Files

def node? (files : Files) (location : Location) : Option Node :=
  if location = [] then some .directory else files.nodes.lookup location

def put (files : Files) (location : Location) (node : Node) : Files :=
  ⟨(location, node) :: files.nodes.filter (·.1 ≠ location)⟩

def erase (files : Files) (location : Location) : Files :=
  ⟨files.nodes.filter (·.1 ≠ location)⟩

def isDirectoryAt (files : Files) (location : Location) : Bool :=
  files.node? location = some .directory

/-- What the file at a location holds, if there is a file. -/
def contentAt? (files : Files) (location : Location) : Option Content :=
  match files.node? location with
  | some (.file content) => some content
  | _ => none

/-! ## From paths to locations -/

/-- The longest name that a file may have, in bytes. -/
def nameLimit : Nat := 255

/-- Follows the pieces of a path. Each piece needs a directory to be followed from; what the last
one leads to need not exist. -/
def walk (files : Files) (location : Location) : List String → Option Location
  | [] => some location
  | piece :: rest =>
    if !files.isDirectoryAt location then none
    else if piece = "" || piece = "." then walk files location rest
    else if piece = ".." then walk files location.dropLast rest
    else if nameLimit < piece.utf8ByteSize then none
    else walk files (location ++ [piece]) rest

/-- Whether a text can name a file at all. -/
def isName (p : Path) : Bool := !p.text.isEmpty && !p.text.toList.contains '\x00'

def start (here : Location) (p : Path) : Location := if p.isAbsolute then [] else here

def resolve? (files : Files) (here : Location) (p : Path) : Option Location :=
  if isName p then files.walk (start here p) p.pieces else none

def nodeAt? (files : Files) (here : Location) (p : Path) : Option Node :=
  files.resolve? here p >>= files.node?

def exists? (files : Files) (here : Location) (p : Path) : Bool := (files.nodeAt? here p).isSome

/-! ## Operations -/

def readText? (files : Files) (here : Location) (p : Path) : Option String :=
  match files.nodeAt? here p with
  | some (.file (.text s)) => some s
  | _ => none

/-- Writes a file, over the old one if there is one. -/
def write? (files : Files) (here : Location) (p : Path) (content : Content) : Option Files :=
  match files.resolve? here p with
  | none => none
  | some location =>
    if files.isDirectoryAt location then none else some (files.put location (.file content))

def writeText? (files : Files) (here : Location) (p : Path) (s : String) : Option Files :=
  files.write? here p (.text s)

/-- Removes a file; a directory is not removed. -/
def remove? (files : Files) (here : Location) (p : Path) : Option Files :=
  match files.resolve? here p with
  | none => none
  | some location =>
    match files.node? location with
    | some (.file _) => some (files.erase location)
    | _ => none

/-- Makes the directories along the pieces of a path, as far as that goes. -/
def makeAlong (files : Files) (location : Location) : List String → Bool × Files
  | [] => (true, files)
  | piece :: rest =>
    if piece = "" || piece = "." then makeAlong files location rest
    else if piece = ".." then makeAlong files location.dropLast rest
    else if nameLimit < piece.utf8ByteSize then (false, files)
    else
      let location := location ++ [piece]
      match files.node? location with
      | some .directory => makeAlong files location rest
      | some (.file _) => (false, files)
      | none => makeAlong (files.put location .directory) location rest

/-- Makes a directory with its parents and tells whether it is there; the empty path needs none. -/
def makeDirectories (files : Files) (here : Location) (p : Path) : Bool × Files :=
  if p.text.isEmpty then (true, files)
  else if isName p then files.makeAlong (start here p) p.pieces
  else (false, files)

end Files

end Latch
