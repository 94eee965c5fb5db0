import Latch.CommandLine.Grammar
import Latch.Text.Decimal

/-!
# Words of the command line

The words of a command line are read from left to right. A word is a level, an option, the value of
an option, a place of a command, or `--`, after which every word is a place.

* `Stop` — reading ends early: the words are refused, or help or the version was asked for;
* `Scan` — what has been read so far;
* `Scan.read` — reads the words.
-/

namespace Latch.CommandLine

/-- Why reading ended before the last word. -/
inductive Stop where
  | refused
  | help
  | version
deriving DecidableEq, Repr

/-- What words have been read as. -/
structure Scan where
  level : Level
  /-- The options of the levels above, the innermost level first. -/
  above : List (Opt × String)
  /-- The options of this level. -/
  given : List (Opt × String)
  /-- The words in the places of a command, the last one first. -/
  words : List String
deriving DecidableEq, Repr

namespace Scan

def start : Scan := ⟨.top, [], [], []⟩

/-- Goes down to a level. -/
def descend (s : Scan) (level : Level) : Scan := ⟨level, s.given ++ s.above, [], []⟩

/-- The value of an option; the innermost level decides. -/
def value? (s : Scan) (opt : Opt) : Option String := (s.given ++ s.above).lookup opt

def has (s : Scan) (opt : Opt) : Bool := (s.value? opt).isSome

/-! ## Options -/

def isFormat (value : String) : Bool := value = "text" || value = "json"

def isInteger (limit : Nat) (value : String) : Bool :=
  match Decimal.readInt limit value.toList with
  | .ok _ => true
  | .error _ => false

/-- Whether a text is a value of an option. -/
def accepts (opt : Opt) (value : String) : Bool :=
  match opt with
  | .format => isFormat value
  | .database => !value.isEmpty
  | .tenant => isInteger (Nat.pow 2 31) value
  | .duration => isInteger (Nat.pow 2 63) value
  | _ => true

/-- Takes an option with its value. At one level an option counts once. -/
def give (s : Scan) (opt : Opt) (value : String) : Except Stop Scan :=
  if opt = .help then .error .help
  else if opt = .version then .error .version
  else if (s.given.lookup opt).isSome || !accepts opt value then .error .refused
  else .ok { s with given := (opt, value) :: s.given }

/-- Whether a word may be the value of an option that stands before it. -/
def isValueWord (opt : Opt) (word : String) : Bool :=
  match word.toList with
  | '-' :: c :: rest => opt.takesNegative && (c :: rest).all Decimal.isDigit
  | _ => true

/-- What a word leads to: to a scan that is ready for any word, or to an option without its value. -/
inductive Next where
  | ready (s : Scan)
  | awaiting (s : Scan) (opt : Opt)

/-- Splits a text at its first equals sign. -/
def splitEquals (cs : List Char) : List Char × Option (List Char) :=
  match cs.dropWhile (· ≠ '=') with
  | [] => (cs, none)
  | _ :: value => (cs.takeWhile (· ≠ '='), some value)

/-- Reads a word after its two dashes. -/
def readLong (s : Scan) (cs : List Char) : Except Stop Next :=
  let (name, value?) := splitEquals cs
  match s.level.long? (String.ofList name), value? with
  | none, _ => .error .refused
  | some opt, none =>
    if opt.takesValue then .ok (.awaiting s opt) else (s.give opt "").map .ready
  | some opt, some value =>
    if opt.takesValue then (s.give opt (String.ofList value)).map .ready else .error .refused

/-- Drops an equals sign between a letter and its value. -/
def dropEquals : List Char → List Char
  | '=' :: value => value
  | value => value

/-- Reads the letters after one dash. A letter whose option takes a value takes the rest of the
word. -/
def readShort (s : Scan) : List Char → Except Stop Next
  | [] => .ok (.ready s)
  | c :: rest =>
    match s.level.short? c with
    | none => .error .refused
    | some opt =>
      if opt.takesValue then
        if rest.isEmpty then .ok (.awaiting s opt)
        else (s.give opt (String.ofList (dropEquals rest))).map .ready
      else
        match s.give opt "" with
        | .error stop => .error stop
        | .ok s => readShort s rest

/-! ## Words -/

/-- Puts a word into the next place of a command. -/
def place (s : Scan) (word : String) : Except Stop Scan :=
  if s.level.hasPlace s.words.length then .ok { s with words := word :: s.words }
  else .error .refused

/-- Puts all words into places. -/
def placeAll (s : Scan) (words : List String) : Except Stop Scan := words.foldlM place s

/-- Answers a request for help on a level; the words must lead to one. The last one may be the request
for help itself. -/
def helpOn (level : Level) : List String → Stop
  | [] => .help
  | word :: rest =>
    match level.below.lookup word with
    | some level => helpOn level rest
    -- the request for help is a level of its own, with none below it
    | none => if level.asksForHelp word && rest.isEmpty then .help else .refused

/-- Reads a word that is neither an option nor a value. -/
def readPlain (s : Scan) (word : String) : Except Stop Scan :=
  match s.level.below.lookup word with
  | some level => .ok (s.descend level)
  | none => s.place word

/-- Reads a word where no value is awaited. -/
def readWord (s : Scan) (word : String) : Except Stop Next :=
  match word.toList with
  | '-' :: '-' :: cs => s.readLong cs
  | '-' :: c :: cs => s.readShort (c :: cs)
  | _ => (s.readPlain word).map .ready

/-- Reads words up to the last one, or up to the first that ends reading. -/
def read : Next → List String → Except Stop Scan
  | .ready s, [] => .ok s
  | .awaiting _ _, [] => .error .refused
  | .awaiting s opt, word :: rest =>
    if isValueWord opt word then
      match s.give opt word with
      | .error stop => .error stop
      | .ok s => read (.ready s) rest
    else .error .refused
  | .ready s, word :: rest =>
    if word = "--" then s.placeAll rest
    else if s.level.asksForHelp word then .error (helpOn s.level rest)
    else
      match s.readWord word with
      | .error stop => .error stop
      | .ok next => read next rest

end Scan

/-- Reads the words of a command line. -/
def scan (words : List String) : Except Stop Scan := Scan.read (.ready .start) words

end Latch.CommandLine
