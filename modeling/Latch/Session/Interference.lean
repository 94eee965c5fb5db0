import Latch.Records
import Latch.Time.Millis

/-!
# Interference

What happens around the record calls of a manager while one of its requests is under way: another
user of the store writes, the clock moves, the store is closed, or the call fails.

* `Act` — what happens, always to the key of the call;
* `Interference` — an act that waits for a call of one kind;
* `Interference.due` — the act that is due at a moment, and those that go on waiting.
-/

namespace Latch

/-- A moment of a record call. -/
inductive Phase where
  | before
  /-- After a call that succeeded, before its answer is returned. -/
  | after
deriving DecidableEq, Repr

inductive Act where
  /-- The call fails with this message. -/
  | fail (message : String)
  | putLock (lock : Lock)
  | dropLock
  | putProperty (name value : String)
  | dropProperty (name : String)
  | setClock (moment : Millis)
  | closeStore
deriving DecidableEq, Repr

namespace Act

open RecordCall (Attempt)

/-- Overwrites the lock of a key, or inserts one. -/
def putLockScript (key : Key) (lock : Lock) : Attempt Unit := do
  let row : Option Lock ← (RecordCall.getLock key).script
  if row.isSome then (RecordCall.updateLock key lock).script
  else (RecordCall.insertLock key lock).script

/-- Overwrites a property of a key, or adds it. -/
def putPropertyScript (key : Key) (name value : String) : Attempt Unit := do
  let row : Option String ← (RecordCall.getProperty key name).script
  let entry := Properties.ofList [(name, value)]
  if row.isSome then (RecordCall.updateProperties key entry).script
  else (RecordCall.addProperties key entry).script

/-- What an act does to the records of a key. -/
def script (key : Key) : Act → Attempt Unit
  | fail message => throw (.record (.described message) .storeClosed)
  | putLock lock => putLockScript key lock
  | dropLock => (RecordCall.deleteLock key).script
  | putProperty name value => putPropertyScript key name value
  | dropProperty name => (RecordCall.deleteProperties key [name]).script
  | setClock _ | closeStore => pure ()

/-- Carries out an act on a store and a clock. -/
def perform (act : Act) (key : Key) (store : Store) (clock : Clock) :
    Except Error Unit × Store × Clock :=
  let (result, store) := store.run (act.script key).run
  match act with
  | setClock moment => (result, store, clock.set moment)
  | closeStore => (result, store.close, clock)
  | _ => (result, store, clock)

end Act

/-- An act that waits for its call. -/
structure Interference where
  method : RecordCall.Method
  phase : Phase
  act : Act
  /-- Calls to let pass before the act. -/
  skip : Nat
deriving DecidableEq, Repr

namespace Interference

def isFor (i : Interference) (method : RecordCall.Method) (phase : Phase) : Bool :=
  i.method = method && i.phase = phase

/-- The act that is due. Only the first interference for the method and the phase is looked at: it
acts and is gone, or it lets the call pass. -/
def due (method : RecordCall.Method) (phase : Phase) :
    List Interference → Option Act × List Interference
  | [] => (none, [])
  | i :: rest =>
    if i.isFor method phase then
      if i.skip = 0 then (some i.act, rest) else (none, { i with skip := i.skip - 1 } :: rest)
    else
      let (act?, rest) := due method phase rest
      (act?, i :: rest)

end Interference

end Latch
