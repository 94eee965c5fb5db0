import Latch.Json.Record
import Latch.Store.Basic

/-!
# Snapshots

The text in which the tables of a store are kept between runs. Each line is a JSON array whose first
item tells what it is about: a table that exists, a row, a version, or a guard.

* `Snapshot.render` — tables as text;
* `Snapshot.parse?` — tables from text; `none` for any other text.
-/

namespace Latch.Store.Snapshot

/-! ## Writing -/

/-- The first line. -/
def heading : String := "latch store 1"

def kindText : WriteKind → String
  | .insert => "insert"
  | .update => "update"
  | .delete => "delete"

def keyItems (key : Key) : List Json :=
  [.text key.user, .integer key.tenant.toInt, .text key.feature]

def tableItems (table : TableName) : List Json := [.text "table", .text table.text]

def lockItems (row : Row Key Lock) : List Json :=
  .text "lock" :: keyItems row.key ++ [row.value.toJson]

def propertyItems (row : Row (Key × String) String) : List Json :=
  .text "property" :: keyItems row.key.1 ++ [.text row.key.2, .text row.value]

def versionItems (version : Int64) : List Json := [.text "version", .integer version.toInt]

def guardItems (guard : Guard) : List Json :=
  [.text "guard", .text guard.table.text, .text (kindText guard.kind), .ofOption guard.name?]

/-- The line of a table that exists, and the lines of what it holds. -/
def tableLines {α : Type} (table : TableName) (items : α → List Json) :
    Option (List α) → List (List Json)
  | none => []
  | some content => tableItems table :: content.map items

def lines (t : Tables) : List (List Json) :=
  tableLines .locks lockItems (t.locks.map Table.rows)
    ++ tableLines .properties propertyItems (t.properties.map Table.rows)
    ++ tableLines .migrations versionItems t.migrations ++ t.guards.map guardItems

def render (t : Tables) : String :=
  heading ++ "\n" ++ String.join ((lines t).map fun items =>
    String.ofList (Json.array items).compact ++ "\n")

/-! ## Reading -/

def tableNames : List TableName := [.locks, .properties, .migrations]

def writeKinds : List WriteKind := [.insert, .update, .delete]

/-- Reads an item that is not the first one; any fault will do. -/
def next? {α : Type} (read : Json.Reader α) (cs : List Char) : Option (α × List Char) :=
  (Json.item false read cs).toOption

def key? (cs : List Char) : Option (Key × List Char) := do
  let (user, cs) ← next? Json.readText cs
  let (tenant, cs) ← next? readTenant cs
  let (feature, cs) ← next? Json.readText cs
  return (⟨user, tenant, feature⟩, cs)

def table? (cs : List Char) : Option (TableName × List Char) := do
  let (name, cs) ← next? Json.readText cs
  return (← tableNames.find? (·.text == name), cs)

/-- Puts what a line says into the tables. -/
def add? (t : Tables) (kind : String) (cs : List Char) : Option (Tables × List Char) := do
  match kind with
  | "table" =>
    let (table, cs) ← table? cs
    return (t.createTable table, cs)
  | "lock" =>
    let (key, cs) ← key? cs
    let (lock, cs) ← next? Lock.read cs
    let (_, t) ← (t.execute (.insertLock key lock)).toOption
    return (t, cs)
  | "property" =>
    let (key, cs) ← key? cs
    let (name, cs) ← next? Json.readText cs
    let (value, cs) ← next? Json.readText cs
    let (_, t) ← (t.execute (.insertProperty key name value)).toOption
    return (t, cs)
  | "version" =>
    let (version, cs) ← next? readMillis cs
    let (_, t) ← (t.execute (.insertVersion version)).toOption
    return (t, cs)
  | "guard" =>
    let (table, cs) ← table? cs
    let (word, cs) ← next? Json.readText cs
    let kind ← writeKinds.find? (kindText · == word)
    let (name?, cs) ← next? (Json.readOptional Json.readText) cs
    return ({ t with guards := t.guards ++ [⟨table, kind, name?⟩] }, cs)
  | _ => none

def addLine? (t : Tables) (line : String) : Option Tables := do
  match line.toList with
  | '[' :: cs =>
    let (kind, cs) ← (Json.item true Json.readText cs).toOption
    let (t, cs) ← add? t kind cs
    if (← (Json.endItems cs).toOption).isEmpty then some t else none
  | [] => some t
  | _ => none

def parse? (text : String) : Option Tables :=
  match text.splitOn "\n" with
  | first :: rest => if first = heading then rest.foldlM addLine? .empty else none
  | [] => none

end Latch.Store.Snapshot
