/-!
# Paths

A path is a text whose parts are separated by slashes.

* `Path.pieces` — the texts between the slashes;
* `Path.join` — a path below another one;
* `Path.parent?` — the path without its last part. Parts that are empty or a single dot say nothing
  and are passed over, except for a dot at the very start of a relative path.
-/

namespace Latch

structure Path where
  text : String
deriving DecidableEq, Repr, Inhabited

namespace Path

def isAbsolute (p : Path) : Bool := p.text.toList.head? = some '/'

/-- The path itself, if it is absolute. -/
def absolute? (p : Path) : Option Path := if p.isAbsolute then some p else none

/-- The path itself, if it is not empty. -/
def nonempty? (p : Path) : Option Path := if p.text.isEmpty then none else some p

/-- Splits at every slash; a text without slashes is a single piece. -/
def split : List Char → List (List Char)
  | [] => [[]]
  | c :: rest =>
    if c = '/' then [] :: split rest
    else match split rest with
      | [] => [[c]]
      | piece :: pieces => (c :: piece) :: pieces

def pieces (p : Path) : List String := (split p.text.toList).map String.ofList

/-- The path `p/name`; an absolute name replaces the path, and no slash is doubled. -/
def join (p : Path) (name : String) : Path :=
  if isAbsolute ⟨name⟩ then ⟨name⟩
  else if p.text.isEmpty || p.text.toList.getLast? = some '/' then ⟨p.text ++ name⟩
  else ⟨p.text ++ "/" ++ name⟩

/-! ## The parent of a path -/

/-- The part of a path before its body: the root of an absolute path, or the dot with which a
relative path starts. -/
def leading : List Char → List Char × List Char
  | '/' :: body => (['/'], body)
  | ['.'] => (['.'], [])
  | '.' :: '/' :: body => (['.'], '/' :: body)
  | body => ([], body)

def isBlank (piece : List Char) : Bool := piece = [] || piece = ['.']

/-- Drops the pieces at the end that say nothing. -/
def trimmed (pieces : List (List Char)) : List (List Char) :=
  (pieces.reverse.dropWhile isBlank).reverse

def parent? (p : Path) : Option Path :=
  let (head, body) := leading p.text.toList
  match trimmed (split body) with
  | [] => if head = ['.'] then some ⟨""⟩ else none
  | pieces =>
    some ⟨String.ofList (head ++ List.intercalate ['/'] (trimmed pieces.dropLast))⟩

end Path

end Latch
