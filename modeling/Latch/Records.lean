import Latch.Properties
import Latch.Store.Migration

/-!
# Record calls

The operations of the record store on whole locks and property sets. A call is a script of
statements; the error of a call says what was being done, and for which key and name.

* `RecordCall.script` — the statements of a call;
* a batch of properties runs one statement per name, in byte order of the names, and stops at the
  first failure, so that what was done before stays and is known.
-/

namespace Latch

inductive RecordCall where
  | getLock (key : Key)
  | insertLock (key : Key) (lock : Lock)
  | updateLock (key : Key) (lock : Lock)
  | deleteLock (key : Key)
  | deleteExpiredLock (key : Key) (now : Millis)
  | getProperties (key : Key)
  | getProperty (key : Key) (name : String)
  | addProperties (key : Key) (properties : Properties)
  | updateProperties (key : Key) (properties : Properties)
  | deleteProperties (key : Key) (names : List String)
  | deleteAllProperties (key : Key)
deriving DecidableEq

namespace RecordCall

abbrev Value : RecordCall → Type
  | getLock _ => Option Lock
  | deleteExpiredLock .. => Bool
  | getProperties _ => Properties
  | getProperty .. => Option String
  | _ => Unit

abbrev Reply (call : RecordCall) : Type := Except Error call.Value

def key : RecordCall → Key
  | getLock key | insertLock key _ | updateLock key _ | deleteLock key | deleteExpiredLock key _
  | getProperties key | getProperty key _ | addProperties key _ | updateProperties key _
  | deleteProperties key _ | deleteAllProperties key => key

/-- The kinds of record calls. -/
inductive Method where
  | getLock
  | insertLock
  | updateLock
  | deleteLock
  | deleteExpiredLock
  | getProperties
  | getProperty
  | addProperties
  | updateProperties
  | deleteProperties
  | deleteAllProperties
deriving DecidableEq, Repr

def method : RecordCall → Method
  | getLock _ => .getLock
  | insertLock .. => .insertLock
  | updateLock .. => .updateLock
  | deleteLock _ => .deleteLock
  | deleteExpiredLock .. => .deleteExpiredLock
  | getProperties _ => .getProperties
  | getProperty .. => .getProperty
  | addProperties .. => .addProperties
  | updateProperties .. => .updateProperties
  | deleteProperties .. => .deleteProperties
  | deleteAllProperties _ => .deleteAllProperties

/-- Whether a call can write. -/
def Method.isWrite : Method → Bool
  | .getLock | .getProperties | .getProperty => false
  | _ => true

/-! ## The statements of a call -/

/-- A script that stops at the first error. -/
abbrev Attempt (α : Type) : Type := ExceptT Error (Program Store.Statement.Reply) α

/-- Runs one statement; if it fails, `failed` says what could not be done. -/
def statement (failed : Failed) (s : Store.Statement) : Attempt s.Result :=
  ExceptT.mk (.ask s fun
    | .ok result => .done (.ok result)
    | .error fault => .done (.error (.record failed fault.cause)))

def addAll (key : Key) : List (String × String) → Attempt Unit
  | [] => pure ()
  | (name, value) :: rest => do
    let _ ← statement (.addProperty key name) (.insertProperty key name value)
    addAll key rest

def updateAll (key : Key) : List (String × String) → Attempt Unit
  | [] => pure ()
  | (name, value) :: rest => do
    let _ ← statement (.updateProperty key name) (.updateProperty key name value)
    updateAll key rest

def deleteAll (key : Key) : List String → Attempt Unit
  | [] => pure ()
  | name :: rest => do
    let _ ← statement (.deleteProperty key name) (.deleteProperty key name)
    deleteAll key rest

def script : (call : RecordCall) → Attempt call.Value
  | getLock key => statement (.readLock key) (.selectLock key)
  | insertLock key lock => statement (.insertLock key lock) (.insertLock key lock)
  | updateLock key lock => statement (.updateLock key) (.updateLock key lock)
  | deleteLock key => statement (.deleteLock key) (.deleteLock key)
  | deleteExpiredLock key now => statement (.deleteExpiredLock key) (.deleteExpiredLock key now)
  | getProperties key => Properties.ofList <$> statement (.readProperties key) (.selectProperties key)
  | getProperty key name => statement (.readProperty key name) (.selectProperty key name)
  | addProperties key properties => addAll key properties.inOrder
  | updateProperties key properties => updateAll key properties.inOrder
  | deleteProperties key names => deleteAll key names
  | deleteAllProperties key => statement (.deleteProperties key) (.deleteProperties key)

end RecordCall

/-- Carries out a record call without interruption. -/
def Store.perform (store : Store) (call : RecordCall) : call.Reply × Store :=
  store.run call.script.run

end Latch
