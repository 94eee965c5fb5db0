import Latch.CommandLine.Words
import Latch.Key
import Latch.Machine.Path
import Latch.Time.Millis

/-!
# Invocations

What a command line asks for, with every value in its type:

* `DataCommand` — a command on the locks and properties of one key;
* `ConfigCommand` — a command on the settings;
* `Invocation` — a command with the options that all commands share;
* `Invocation.ofWords` — reads a command line.
-/

namespace Latch.CommandLine

inductive Format where
  | text
  | json
deriving DecidableEq, Repr

inductive DataAction where
  | status
  /-- Locks for a duration; without one the command fails when it is carried out. -/
  | lock (duration? : Option Millis) (reasonCode reason : Option String)
  | unlock
  /-- Shows one property, or all. -/
  | getProperties (name? : Option String)
  | setProperties (pairs : List (String × String))
  | deleteProperties (names : List String)
  | clearProperties
deriving DecidableEq, Repr

structure DataCommand where
  key : Key
  action : DataAction
deriving DecidableEq, Repr

inductive ConfigCommand where
  | get (name : String)
  | set (name text : String)
  | list
  | reset
  | path
deriving DecidableEq, Repr

inductive Command where
  | data (command : DataCommand)
  | config (command : ConfigCommand)
  | doctor
deriving DecidableEq, Repr

structure Invocation where
  command : Command
  format : Format
  isQuiet : Bool
  database? : Option Path
deriving DecidableEq, Repr

namespace Scan

def integer? (s : Scan) (limit : Nat) (opt : Opt) : Option Int := do
  match Decimal.readInt limit (← s.value? opt).toList with
  | .ok n => some n
  | .error _ => none

/-- The key that a command is about; all three parts must be given. -/
def key? (s : Scan) : Option Key := do
  return ⟨← s.value? .user, Int32.ofInt (← s.integer? (Nat.pow 2 31) .tenant), ← s.value? .feature⟩

/-- The duration of a lock; a lock without end has the duration `-1`. -/
def duration? (s : Scan) : Option Millis :=
  if s.has .indefinite then some (-1) else (s.integer? (Nat.pow 2 63) .duration).map Int64.ofInt

def lock? (s : Scan) : Option DataAction :=
  if s.has .indefinite && s.has .duration then none
  else some (.lock s.duration? (s.value? .reasonCode) (s.value? .reason))

/-- Splits a word at its first equals sign into a name and a value; the name must not be empty. -/
def pair? (word : String) : Option (String × String) :=
  match splitEquals word.toList with
  | ([], _) => none
  | (_, none) => none
  | (name, some value) => some (String.ofList name, String.ofList value)

/-- The words in the places of a command in their order, of which there must be one at least. -/
def someWords? (s : Scan) : Option (List String) :=
  if s.words.isEmpty then none else some s.words.reverse

def data? (s : Scan) (action? : Option DataAction) : Option Command := do
  return .data ⟨← s.key?, ← action?⟩

/-- The command that a scan ended at. -/
def command? (s : Scan) : Option Command :=
  match s.level with
  | .top | .props | .config => none
  | .verb v =>
    match v, s.words.reverse with
    | .status, _ => s.data? (some .status)
    | .lock, _ => s.data? s.lock?
    | .unlock, _ => s.data? (some .unlock)
    | .propsGet, _ => s.data? (some (.getProperties (s.value? .name)))
    | .propsSet, _ => s.data? do return .setProperties (← (← s.someWords?).mapM pair?)
    | .propsDelete, _ => s.data? do return .deleteProperties (← s.someWords?)
    | .propsClear, _ => s.data? (some .clearProperties)
    | .configGet, [name] => some (.config (.get name))
    | .configSet, [name, text] => some (.config (.set name text))
    | .configGet, _ | .configSet, _ => none
    | .configList, _ => some (.config .list)
    | .configReset, _ => some (.config .reset)
    | .configPath, _ => some (.config .path)
    | .doctor, _ => some .doctor

end Scan

namespace Invocation

def ofScan? (s : Scan) : Option Invocation := do
  return {
    command := ← s.command?
    format := if s.value? .format = some "json" then .json else .text
    isQuiet := s.has .quiet
    database? := (s.value? .database).map Path.mk }

/-- Reads a command line. -/
def ofWords (words : List String) : Except Stop Invocation :=
  match scan words with
  | .error stop => .error stop
  | .ok s =>
    match ofScan? s with
    | some invocation => .ok invocation
    | none => .error .refused

end Invocation

end Latch.CommandLine
