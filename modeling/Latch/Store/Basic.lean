import Latch.Error
import Latch.Program
import Latch.Text.ByteOrder
import Latch.Store.Table

/-!
# The record store

A store holds three tables: the locks by key, the properties by key and name, and the versions of
the migrations that were applied. Each table may be missing. The store answers one `Statement` at a
time, as a whole or not at all:

* `Statement.Result` — what a statement returns when it succeeds;
* `Store.execute` — runs a statement; a statement that fails changes nothing;
* `Guard` — a kind of write that the store forbids from some moment on;
* `Store.Script` — a program over statements.
-/

namespace Latch

namespace Store

inductive TableName where
  | locks
  | properties
  | migrations
deriving DecidableEq, Repr

/-- The name of a table as the store lists it. -/
def TableName.text : TableName → String
  | locks => "user_feature_locks"
  | properties => "user_feature_lock_properties"
  | migrations => "_migrations"

inductive WriteKind where
  | insert
  | update
  | delete
deriving DecidableEq, Repr

/-- Forbids one kind of write to a table: of every row, or of the rows of one property name. -/
structure Guard where
  table : TableName
  kind : WriteKind
  name? : Option String
deriving DecidableEq, Repr

abbrev LockTable := Table Key Lock

abbrev PropertyTable := Table (Key × String) String

/-- What a store keeps, also while it is closed. -/
structure Tables where
  locks : Option LockTable
  properties : Option PropertyTable
  /-- Version numbers, none of them twice. -/
  migrations : Option (List Int64)
  guards : List Guard
deriving DecidableEq

def Tables.empty : Tables := ⟨none, none, none, []⟩

instance : Inhabited Tables := ⟨Tables.empty⟩

end Store

structure Store where
  tables : Store.Tables
  closed : Bool
deriving DecidableEq, Inhabited

namespace Store

/-! ## Statements -/

inductive Statement where
  | selectLock (key : Key)
  | insertLock (key : Key) (lock : Lock)
  | updateLock (key : Key) (lock : Lock)
  | deleteLock (key : Key)
  | deleteExpiredLock (key : Key) (now : Millis)
  | selectProperties (key : Key)
  | selectProperty (key : Key) (name : String)
  | insertProperty (key : Key) (name value : String)
  | updateProperty (key : Key) (name value : String)
  | deleteProperty (key : Key) (name : String)
  | deleteProperties (key : Key)
  /-- Makes a table unless it is there. -/
  | createTable (table : TableName)
  /-- Makes the index of a table unless it is there. -/
  | createIndex (table : TableName)
  | selectVersion
  | insertVersion (version : Int64)
  | deleteVersions
  /-- Reads nothing. -/
  | ping
deriving DecidableEq

abbrev Statement.Result : Statement → Type
  | selectLock _ => Option Lock
  | deleteExpiredLock .. => Bool
  | selectProperties _ => List (String × String)
  | selectProperty .. => Option String
  | selectVersion => Option Int32
  | _ => Unit

abbrev Statement.Reply (s : Statement) : Type := Except Fault s.Result

/-- A program over statements. -/
abbrev Script (α : Type) : Type := Program Statement.Reply α

/-! ## Running a statement -/

namespace Tables

/-- Whether a write to a row is forbidden; a lock or a version has no property name. -/
def forbids (t : Tables) (table : TableName) (kind : WriteKind) (name? : Option String) : Bool :=
  t.guards.any fun guard =>
    guard.table = table && guard.kind = kind && (guard.name?.isNone || guard.name? = name?)

def insertLock (t : Tables) (key : Key) (lock : Lock) : Except Fault (Unit × Tables) :=
  match t.locks with
  | none => .error .missingTable
  | some locks =>
    if t.forbids .locks .insert none then .error .guarded
    else match locks.insert? key lock with
      | none => .error .duplicate
      | some locks => .ok ((), { t with locks := some locks })

def updateLock (t : Tables) (key : Key) (lock : Lock) : Except Fault (Unit × Tables) :=
  match t.locks with
  | none => .error .missingTable
  | some locks =>
    if locks.contains key && t.forbids .locks .update none then .error .guarded
    else .ok ((), { t with locks := some (locks.update key lock) })

/-- Removes the lock of a key if it passes a test, and tells whether it did. -/
def deleteLockWhere (t : Tables) (key : Key) (test : Lock → Bool) :
    Except Fault (Bool × Tables) :=
  match t.locks with
  | none => .error .missingTable
  | some locks =>
    let test := fun k lock => decide (k = key) && test lock
    let found := locks.anyWhere test
    if found && t.forbids .locks .delete none then .error .guarded
    else .ok (found, { t with locks := some (locks.deleteWhere test) })

def insertProperty (t : Tables) (key : Key) (name value : String) :
    Except Fault (Unit × Tables) :=
  match t.properties with
  | none => .error .missingTable
  | some properties =>
    if t.forbids .properties .insert (some name) then .error .guarded
    else match properties.insert? (key, name) value with
      | none => .error .duplicate
      | some properties => .ok ((), { t with properties := some properties })

def updateProperty (t : Tables) (key : Key) (name value : String) :
    Except Fault (Unit × Tables) :=
  match t.properties with
  | none => .error .missingTable
  | some properties =>
    if properties.contains (key, name) && t.forbids .properties .update (some name) then
      .error .guarded
    else .ok ((), { t with properties := some (properties.update (key, name) value) })

/-- Removes the properties of a key whose names pass a test, all of them or none. -/
def deletePropertiesWhere (t : Tables) (key : Key) (test : String → Bool) :
    Except Fault (Unit × Tables) :=
  match t.properties with
  | none => .error .missingTable
  | some properties =>
    let test := fun (k : Key × String) (_ : String) => decide (k.1 = key) && test k.2
    if properties.anyWhere fun k v => test k v && t.forbids .properties .delete (some k.2) then
      .error .guarded
    else .ok ((), { t with properties := some (properties.deleteWhere test) })

/-- The entries of a key in the order of their rows. -/
def propertiesOf (properties : PropertyTable) (key : Key) : List (String × String) :=
  properties.rows.filterMap fun row =>
    if row.key.1 = key then some (row.key.2, row.value) else none

def hasTable (t : Tables) : TableName → Bool
  | .locks => t.locks.isSome
  | .properties => t.properties.isSome
  | .migrations => t.migrations.isSome

def createTable (t : Tables) : TableName → Tables
  | .locks => { t with locks := some (t.locks.getD .empty) }
  | .properties => { t with properties := some (t.properties.getD .empty) }
  | .migrations => { t with migrations := some (t.migrations.getD []) }

/-- The highest version, which must fit into the narrower word that holds the current version. -/
def selectVersion (t : Tables) : Except Fault (Option Int32) :=
  match t.migrations with
  | none => .error .missingTable
  | some [] => .ok none
  | some (version :: rest) =>
    let highest := rest.foldl max version.toInt
    if -2147483648 ≤ highest ∧ highest ≤ 2147483647 then .ok (some (Int32.ofInt highest))
    else .error .outOfRange
where
  max (a : Int) (b : Int64) : Int := if a < b.toInt then b.toInt else a

def insertVersion (t : Tables) (version : Int64) : Except Fault (Unit × Tables) :=
  match t.migrations with
  | none => .error .missingTable
  | some versions =>
    if t.forbids .migrations .insert none then .error .guarded
    else if versions.contains version then .error .duplicate
    else .ok ((), { t with migrations := some (versions ++ [version]) })

def deleteVersions (t : Tables) : Except Fault (Unit × Tables) :=
  match t.migrations with
  | none => .error .missingTable
  | some versions =>
    if !versions.isEmpty && t.forbids .migrations .delete none then .error .guarded
    else .ok ((), { t with migrations := some [] })

def execute (t : Tables) : (s : Statement) → Except Fault (s.Result × Tables)
  | .selectLock key =>
    match t.locks with
    | none => .error .missingTable
    | some locks => .ok (locks.get? key, t)
  | .insertLock key lock => t.insertLock key lock
  | .updateLock key lock => t.updateLock key lock
  | .deleteLock key => (t.deleteLockWhere key fun _ => true).map fun r => ((), r.2)
  | .deleteExpiredLock key now => t.deleteLockWhere key (·.isExpiredAt now)
  | .selectProperties key =>
    match t.properties with
    | none => .error .missingTable
    | some properties => .ok (propertiesOf properties key, t)
  | .selectProperty key name =>
    match t.properties with
    | none => .error .missingTable
    | some properties => .ok (properties.get? (key, name), t)
  | .insertProperty key name value => t.insertProperty key name value
  | .updateProperty key name value => t.updateProperty key name value
  | .deleteProperty key name => t.deletePropertiesWhere key (· = name)
  | .deleteProperties key => t.deletePropertiesWhere key fun _ => true
  | .createTable table => .ok ((), t.createTable table)
  | .createIndex table => if t.hasTable table then .ok ((), t) else .error .missingTable
  | .selectVersion => t.selectVersion.map fun version => (version, t)
  | .insertVersion version => t.insertVersion version
  | .deleteVersions => t.deleteVersions
  | .ping => .ok ((), t)

end Tables

/-- Answers a statement and returns the store after it. -/
def execute (s : Statement) (store : Store) : s.Reply × Store :=
  if store.closed then (.error .closed, store)
  else match store.tables.execute s with
    | .ok (result, tables) => (.ok result, { store with tables })
    | .error fault => (.error fault, store)

/-- Runs a script without interruption. -/
def run {α : Type} (store : Store) (script : Script α) : α × Store := script.run execute store

def close (store : Store) : Store := { store with closed := true }

/-! ## Administration

Operations that change the store behind its users' back. They give `none` where they cannot be
carried out. -/

def dropTable? (store : Store) (table : TableName) : Option Store :=
  if store.closed || !store.tables.hasTable table then none
  else
    let t := { store.tables with guards := store.tables.guards.filter (·.table ≠ table) }
    some { store with tables := match table with
      | .locks => { t with locks := none }
      | .properties => { t with properties := none }
      | .migrations => { t with migrations := none } }

/-- Whether a kind of write to a table has a guard, of whatever rows. -/
def isGuarded (store : Store) (table : TableName) (kind : WriteKind) : Bool :=
  store.tables.guards.any fun guard => guard.table = table && guard.kind = kind

/-- Forbids a kind of write; there is at most one guard for a table and a kind. -/
def forbid? (store : Store) (guard : Guard) : Option Store :=
  if store.closed || !store.tables.hasTable guard.table || store.isGuarded guard.table guard.kind then
    none
  else some { store with tables :=
    { store.tables with guards := store.tables.guards ++ [guard] } }

def permit? (store : Store) (table : TableName) (kind : WriteKind) : Option Store :=
  if store.closed || !store.isGuarded table kind then none
  else some { store with tables := { store.tables with
    guards := store.tables.guards.filter fun guard => guard.table ≠ table || guard.kind ≠ kind } }

/-- The tables that exist, sorted by name. -/
def tableNames? (store : Store) : Option (List String) :=
  if store.closed then none
  else some (ByteOrder.inOrder id
    (([.locks, .properties, .migrations] : List TableName).filter store.tables.hasTable
      |>.map TableName.text))

/-- The applied versions in rising order. -/
def versions? (store : Store) : Option (List Int64) :=
  if store.closed then none
  else store.tables.migrations.map fun versions => versions.mergeSort (· ≤ ·)

end Store

end Latch
