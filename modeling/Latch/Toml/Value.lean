/-!
# TOML values

A document is a table of named values. A table remembers how it came to be written, because that
decides whether later lines may still add to it.

* `Value.TableKind` — how a table was written;
* `Entries.get?`, `Entries.set` — the entries of a table by name;
* `Entries.changeLast?` — reaches into the last table of an array of tables.
-/

namespace Latch.Toml

/-- How a table was written. -/
inductive TableKind where
  /-- Between braces; it is complete. -/
  | braced
  /-- Below a header of its own; dotted keys cannot add to it. -/
  | headed
  /-- Only as a part of the header of another table. -/
  | implied
  /-- Only as a part of dotted keys. -/
  | dotted
deriving DecidableEq, Repr

/-- A value. Of fractional numbers and of dates only the kind is kept. -/
inductive Value where
  | string (text : String)
  | integer (n : Int)
  | boolean (b : Bool)
  | float
  | dateTime
  | array (items : List Value)
  | table (kind : TableKind) (entries : List (String × Value))
  /-- An array of tables that were written below headers. -/
  | tables (items : List (List (String × Value)))

/-- The entries of a table; no name occurs twice in a table that was read. -/
abbrev Entries := List (String × Value)

namespace Entries

def get? (entries : Entries) (name : String) : Option Value := entries.lookup name

/-- Replaces the entry of a name, or adds one at the end. -/
def set (name : String) (value : Value) : Entries → Entries
  | [] => [(name, value)]
  | entry :: rest =>
    if entry.1 = name then (name, value) :: rest else entry :: set name value rest

/-- Adds an entry; refused if the name is there. -/
def add? (entries : Entries) (name : String) (value : Value) : Option Entries :=
  if (entries.get? name).isSome then none else some (entries ++ [(name, value)])

/-- Changes the last table of an array of tables. -/
def changeLast? (change : Entries → Option Entries) : List Entries → Option (List Entries)
  | [] => none
  | [last] => (change last).map fun last => [last]
  | first :: next :: rest => (changeLast? change (next :: rest)).map (first :: ·)

end Entries

end Latch.Toml
