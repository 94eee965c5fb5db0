import Latch.Manager
import Latch.Session.Interference
import Latch.Store.Opening

/-!
# Sessions

A session is a manager at work: a switch, a clock, an open store, and the machine that both live on.

* `Wiring` — whether the manager's record calls are observed, and which clock it reads;
* `Session.answer` — how a session answers what the manager asks;
* `Session.request` — a request to the manager;
* `Session.reopen`, `Session.switch` — what else can happen to a session.
-/

namespace Latch

/-- How a manager is connected to its surroundings. -/
structure Wiring where
  /-- Record calls are noted, and interferences take place. -/
  isObserved : Bool
  /-- The moment at which the system's clock stands still; none if the session's own clock is read. -/
  systemTime? : Option Millis
deriving DecidableEq, Repr

/-- What a session is opened on. -/
inductive Source where
  | memory
  /-- In memory, and without any table. -/
  | bareMemory
  | file (config : StoreConfig)
deriving DecidableEq, Repr

def Source.open (machine : Machine) : Source → Except StorageError OpenStore × Machine
  | memory => OpenStore.ofConfig machine .inMemory
  | bareMemory => (.ok .bare, machine)
  | file config => OpenStore.ofConfig machine config

structure Session where
  source : Source
  wiring : Wiring
  enabled : Bool
  clock : Clock
  store : OpenStore
  machine : Machine
  interferences : List Interference
  /-- The record calls of the current step, the last one first. -/
  calls : List RecordCall.Method

namespace Session

/-- Opens the store and starts a session on it. -/
def start (source : Source) (wiring : Wiring) (enabled : Bool) (now : Millis) (machine : Machine) :
    Except StorageError Session :=
  match source.open machine with
  | (.error e, _) => .error e
  | (.ok store, machine) =>
    .ok ⟨source, wiring, enabled, ⟨now⟩, store, machine, [], []⟩

/-! ## What the manager asks -/

def time (s : Session) : Millis := s.wiring.systemTime?.getD s.clock.now

/-- Carries out a record call on the store. -/
def perform (s : Session) (call : RecordCall) : call.Reply × Session :=
  let (reply, store) := s.store.run call.script.run
  (reply, { s with store })

/-- Carries out an act on the store and the clock. -/
def act (s : Session) (key : Key) (a : Act) : Except Error Unit × Session :=
  let (result, store, clock) := a.perform key s.store.store s.clock
  (result, { s with store := { s.store with store }, clock })

/-- Lets the interference that is due take place. -/
def interfere (s : Session) (call : RecordCall) (phase : Phase) : Except Error Unit × Session :=
  match Interference.due call.method phase s.interferences with
  | (none, interferences) => (.ok (), { s with interferences })
  | (some act, interferences) => { s with interferences }.act call.key act

/-- Carries out a record call with what interferes before and after it. -/
def performObserved (s : Session) (call : RecordCall) : call.Reply × Session :=
  match { s with calls := call.method :: s.calls }.interfere call .before with
  | (.error e, s) => (.error e, s)
  | (.ok (), s) =>
    match s.perform call with
    | (.error e, s) => (.error e, s)
    | (.ok value, s) =>
      match s.interfere call .after with
      | (.error e, s) => (.error e, s)
      | (.ok (), s) => (.ok value, s)

def answer (effect : Effect) (s : Session) : effect.Reply × Session :=
  match effect with
  | .readClock => (s.time, s)
  | .record call => if s.wiring.isObserved then s.performObserved call else s.perform call

def request (s : Session) (r : Request) : Except Error r.Answer × Session :=
  (r.action s.enabled).run.run answer s

/-! ## The store of a session -/

def onStore {α : Type} (s : Session) (f : OpenStore → α × OpenStore) : α × Session :=
  let (result, store) := f s.store
  (result, { s with store })

/-- Closes the store and opens it again. If that fails, the session goes on with the closed store,
whose file is left alone from then on. -/
def reopen (s : Session) : Except StorageError Unit × Session :=
  let s := { s with machine := s.store.leave s.machine, interferences := [] }
  match s.source.open s.machine with
  | (.ok store, machine) => (.ok (), { s with store, machine })
  | (.error e, machine) =>
    (.error e, { s with store := { s.store.close with file? := none }, machine })

/-- Rebuilds the manager with another switch; what waits to interfere is lost. -/
def switch (s : Session) (enabled : Bool) : Session := { s with enabled, interferences := [] }

end Session

end Latch
