import Latch.Config.Basic
import Latch.Toml.Document
import Latch.Toml.Quoted

/-!
# Settings as text

Settings are written as a document with two sections. When they are read, unknown names are passed
over, and what is missing has its standard value; a section may also be an array of its fields in
their order.

* `Config.render` — settings as text;
* `Config.parse?` — settings from text; `none` for a malformed text and for values of a wrong kind.
-/

namespace Latch.Config

open Toml (Value Entries)

def switchSection : String := "feature_locking"
def switchField : String := "per_user_enabled"
def storeSection : String := "database"
def pathField : String := "path"
def countField : String := "max_connections"

/-! ## Writing -/

/-- One line with a field and its value. -/
def field (name : String) (value : List Char) : List Char :=
  name.toList ++ " = ".toList ++ value ++ ['\n']

def heading (name : String) : List Char := '[' :: name.toList ++ "]\n".toList

def pathLine : Option Path → List Char
  | some path => field pathField (Toml.Quoted.quote path.text.toList)
  | none => []

def render (config : Config) : String :=
  String.ofList (heading switchSection
    ++ field switchField (boolText config.perUserEnabled).toList
    ++ '\n' :: heading storeSection
    ++ pathLine config.store.path?
    ++ field countField (countText config.store.maxConnections).toList)

/-! ## Reading -/

/-- The fields of a section by name. An array gives its items to the fields in their order, and items
beyond the last field are passed over; a date has no fields. -/
def fields? (names : List String) : Value → Option Entries
  | .table _ entries => some entries
  | .array items => some (names.zip items)
  | .tables items => some (names.zip (items.map (.table .headed)))
  | .dateTime => some []
  | _ => none

/-- A value that may be missing, read by its kind. -/
def readOr {α : Type} (standard : α) (read? : Value → Option α) : Option Value → Option α
  | none => some standard
  | some value => read? value

def asBool? : Value → Option Bool
  | .boolean b => some b
  | _ => none

def asPath? : Value → Option (Option Path)
  | .string text => some (some ⟨text⟩)
  | _ => none

/-- A whole number that fits into an unsigned 32-bit word. -/
def asCount? : Value → Option UInt32
  | .integer n => if 0 ≤ n ∧ n.toNat < UInt32.size then some (UInt32.ofNat n.toNat) else none
  | _ => none

def switch? (value : Value) : Option Bool := do
  let fields ← fields? [switchField] value
  readOr standard.perUserEnabled asBool? (fields.get? switchField)

def store? (value : Value) : Option StoreSettings := do
  let fields ← fields? [pathField, countField] value
  let path? ← readOr StoreSettings.standard.path? asPath? (fields.get? pathField)
  let maxConnections ←
    readOr StoreSettings.standard.maxConnections asCount? (fields.get? countField)
  return { path?, maxConnections }

def ofEntries? (entries : Entries) : Option Config := do
  let perUserEnabled ← readOr standard.perUserEnabled switch? (entries.get? switchSection)
  let store ← readOr StoreSettings.standard store? (entries.get? storeSection)
  return { perUserEnabled, store }

def parse? (text : String) : Option Config := do
  ofEntries? (← Toml.Document.ofText? text)

end Latch.Config
