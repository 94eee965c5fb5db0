import Latch.Records

/-!
# The manager

What callers may ask for, and how it is carried out over the record store and a clock. Every request
first checks the switch; while it is off, nothing else happens. An error of the record store is
returned as it is, and nothing is asked after it.

* `Effect` — what the manager asks of its surroundings: the time, or a record call;
* `Manager.status` — reads a lock and removes it if it has expired. The removal is conditional, so a
  lock that was written after the read survives and is read once more;
* `Manager.lock` — the longest lock wins: a row is overwritten if it is not active or ends earlier;
* `Manager.setProperties` — adds the names that are new and updates the others;
* `Request` — all requests as one type, with the type of each answer.
-/

namespace Latch

inductive Effect where
  | readClock
  | record (call : RecordCall)

abbrev Effect.Reply : Effect → Type
  | readClock => Millis
  | record call => call.Reply

/-- A program over effects that stops at the first error. -/
abbrev Action (α : Type) : Type := ExceptT Error (Program Effect.Reply) α

namespace Manager

def now : Action Millis := ExceptT.mk (.ask .readClock fun now => .done (.ok now))

def record (call : RecordCall) : Action call.Value := ExceptT.mk (Program.single (Effect.record call))

def ensureEnabled (enabled : Bool) : Action Unit :=
  if enabled then pure () else throw .disabled

/-! ## Locks -/

/-- The row of a key after its purge has found nothing to remove. -/
def statusAfterPurge (key : Key) (now : Millis) : Action Lock := do
  let row : Option Lock ← record (.getLock key)
  match row with
  | some lock => if lock.isExpiredAt now then return .unlocked else return lock
  | none => return .unlocked

def purge (key : Key) (now : Millis) : Action Lock := do
  let purged : Bool ← record (.deleteExpiredLock key now)
  if purged then return .unlocked else statusAfterPurge key now

def status (enabled : Bool) (key : Key) : Action Lock := do
  ensureEnabled enabled
  let row : Option Lock ← record (.getLock key)
  match row with
  | none => return .unlocked
  | some lock =>
    let now ← now
    if lock.isExpiredAt now then purge key now else return lock

/-- The unlock time that a duration asks for; the clock is read only for a duration that has an
end. -/
def target (duration : Millis) : Action Millis :=
  if duration < 0 then return .last else return (← now).later duration

/-- Writes a requested lock over the row that was read. -/
def merge (key : Key) (requested : Lock) : Option Lock → Action LockOutcome
  | none => do
    let _ ← record (.insertLock key requested)
    return .created
  | some existing =>
    if !existing.locked then do
      let _ ← record (.updateLock key requested)
      return .relocked
    else if existing.unlockTime < requested.unlockTime then do
      let _ ← record (.updateLock key requested)
      return .extended
    else return .unchanged

def lock (enabled : Bool) (key : Key) (duration : Millis) (reasonCode reason : Option String) :
    Action LockOutcome := do
  ensureEnabled enabled
  let unlockTime ← target duration
  let existing : Option Lock ← record (.getLock key)
  merge key (.lockedUntil unlockTime reasonCode reason) existing

def unlock (enabled : Bool) (key : Key) : Action Unit := do
  ensureEnabled enabled
  record (.deleteLock key)

/-! ## Properties -/

def properties (enabled : Bool) (key : Key) : Action Properties := do
  ensureEnabled enabled
  record (.getProperties key)

def property (enabled : Bool) (key : Key) (name : String) : Action (Option String) := do
  ensureEnabled enabled
  record (.getProperty key name)

/-- Writes the two halves of a diff; a half without names makes no call. -/
def writeDiff (key : Key) (diff : PropertyDiff) : Action PropertyDiff := do
  if !diff.toAdd.isEmpty then
    let _ ← record (.addProperties key diff.toAdd)
  if !diff.toUpdate.isEmpty then
    let _ ← record (.updateProperties key diff.toUpdate)
  return diff

def setProperties (enabled : Bool) (key : Key) (incoming : Properties) : Action PropertyDiff := do
  ensureEnabled enabled
  if incoming.isEmpty then return default
  else
    let existing ← record (.getProperties key)
    writeDiff key (PropertyDiff.compute incoming existing)

def addProperties (enabled : Bool) (key : Key) (properties : Properties) : Action Unit := do
  ensureEnabled enabled
  record (.addProperties key properties)

def updateProperties (enabled : Bool) (key : Key) (properties : Properties) : Action Unit := do
  ensureEnabled enabled
  record (.updateProperties key properties)

def deleteProperties (enabled : Bool) (key : Key) (names : List String) : Action Unit := do
  ensureEnabled enabled
  record (.deleteProperties key names)

def deleteAllProperties (enabled : Bool) (key : Key) : Action Unit := do
  ensureEnabled enabled
  record (.deleteAllProperties key)

end Manager

/-! ## Requests -/

inductive Request where
  | status (key : Key)
  | lock (key : Key) (duration : Millis) (reasonCode reason : Option String)
  | unlock (key : Key)
  | properties (key : Key)
  | property (key : Key) (name : String)
  | setProperties (key : Key) (properties : Properties)
  | addProperties (key : Key) (properties : Properties)
  | updateProperties (key : Key) (properties : Properties)
  | deleteProperties (key : Key) (names : List String)
  | deleteAllProperties (key : Key)
deriving DecidableEq

namespace Request

def Answer : Request → Type
  | .status _ => Lock
  | .lock .. => LockOutcome
  | .properties _ => Properties
  | .property .. => Option String
  | .setProperties .. => PropertyDiff
  | _ => Unit

def key : Request → Key
  | .status key | .lock key _ _ _ | .unlock key | .properties key | .property key _
  | .setProperties key _ | .addProperties key _ | .updateProperties key _
  | .deleteProperties key _ | .deleteAllProperties key => key

/-- Whether a request is about a lock and not about properties. -/
def isAboutLock : Request → Bool
  | .status _ | .lock .. | .unlock _ => true
  | _ => false

def action (enabled : Bool) : (request : Request) → Action request.Answer
  | .status key => Manager.status enabled key
  | .lock key duration reasonCode reason => Manager.lock enabled key duration reasonCode reason
  | .unlock key => Manager.unlock enabled key
  | .properties key => Manager.properties enabled key
  | .property key name => Manager.property enabled key name
  | .setProperties key entries => Manager.setProperties enabled key entries
  | .addProperties key entries => Manager.addProperties enabled key entries
  | .updateProperties key entries => Manager.updateProperties enabled key entries
  | .deleteProperties key names => Manager.deleteProperties enabled key names
  | .deleteAllProperties key => Manager.deleteAllProperties enabled key

end Request

end Latch
