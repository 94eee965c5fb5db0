import Latch.Session.Basic
import Latch.Session.Dump

/-!
# Steps of a session

* `Session.Step` — what can be asked of a session;
* `Session.Answer`, `Session.Failure` — what comes back;
* `Session.apply` — the answer to a step, and the session after it.
-/

namespace Latch.Session

inductive Step where
  /-- A request to the manager. -/
  | request (r : Request)
  /-- A record call past the manager. -/
  | record (call : RecordCall)
  | isEnabled
  /-- The manager in words, for diagnosis. -/
  | describe
  | enable
  | disable
  | advance (amount : Millis)
  | setClock (moment : Millis)
  | interfere (i : Interference)
  | migrate
  | checkHealth
  | migrationStatus
  | needsMigration
  | storePath
  | close
  | reopen
  | fileExists (file : Path)
  | dump
  | versions
  | tableNames
  | recordVersions (versions : List Int64)
  | dropTable (table : Store.TableName)
  | forbid (guard : Store.Guard)
  | permit (table : Store.TableName) (kind : Store.WriteKind)
deriving DecidableEq

inductive Answer where
  | done
  | status (lock : Lock)
  | row (lock? : Option Lock)
  | outcome (outcome : LockOutcome)
  | properties (properties : Properties)
  | property (value? : Option String)
  | diff (diff : PropertyDiff)
  | flag (b : Bool)
  | text (text : String)
  | moment (moment : Millis)
  | migration (status : Store.Migration.Status)
  | dump (dump : Dump)
  | versions (versions? : Option (List Int64))
  | tableNames (names? : Option (List String))
deriving DecidableEq

inductive Failure where
  | request (e : Error)
  | storage (e : StorageError)
  /-- The store has no place for what was asked. -/
  | impossible
deriving DecidableEq, Repr

abbrev Outcome : Type := Except Failure Answer

/-! ## Answers of requests and calls -/

def Answer.ofRequest : (r : Request) → r.Answer → Answer
  | .status _, lock => .status lock
  | .lock .., o => .outcome o
  | .unlock _, () => .done
  | .properties _, entries => .properties entries
  | .property .., value? => .property value?
  | .setProperties .., split => .diff split
  | .addProperties .., () => .done
  | .updateProperties .., () => .done
  | .deleteProperties .., () => .done
  | .deleteAllProperties _, () => .done

def Answer.ofCall : (call : RecordCall) → call.Value → Answer
  | .getLock _, lock? => .row lock?
  | .insertLock .., () => .done
  | .updateLock .., () => .done
  | .deleteLock _, () => .done
  | .deleteExpiredLock .., removed => .flag removed
  | .getProperties _, entries => .properties entries
  | .getProperty .., value? => .property value?
  | .addProperties .., () => .done
  | .updateProperties .., () => .done
  | .deleteProperties .., () => .done
  | .deleteAllProperties _, () => .done

/-! ## The manager in words -/

def switchText (enabled : Bool) : String :=
  "FeatureLockingConfig \x7b per_user_enabled: " ++ boolText enabled ++ " \x7d"

def clockText (s : Session) : String :=
  match s.wiring.systemTime? with
  | some _ => "SystemClock"
  | none =>
    "ManualClock \x7b now: " ++ Decimal.intText s.clock.now.toInt ++ " \x7d"

def describe (s : Session) : String :=
  "UserFeatureManager \x7b locks: FeatureLockManager \x7b clock: " ++ s.clockText ++ ", config: "
    ++ switchText s.enabled ++ ", .. \x7d, properties: FeaturePropertyStore \x7b config: "
    ++ switchText s.enabled ++ ", .. \x7d \x7d"

/-! ## Taking a step -/

/-- Takes over the answer of a part of the session. -/
def answered {ε α : Type} (failure : ε → Failure) (answer : α → Answer) :
    Except ε α × Session → Outcome × Session
  | (.ok a, s) => (.ok (answer a), s)
  | (.error e, s) => (.error (failure e), s)

/-- Changes the store behind the manager's back, where that is possible. -/
def administer (s : Session) (change? : Store → Option Store) : Outcome × Session :=
  match change? s.store.store with
  | some store => (.ok .done, { s with store := { s.store with store } })
  | none => (.error .impossible, s)

/-- Operations on a store without a migrated layout report its faults as they are. -/
def plainly (s : Session) : StorageError → StorageError
  | .notMigrated fault => if s.source = .bareMemory then .bare fault else .notMigrated fault
  | .noStatus fault => if s.source = .bareMemory then .bare fault else .noStatus fault
  | e => e

def setTime (s : Session) (clock : Clock) : Outcome × Session :=
  (.ok (.moment clock.now), { s with clock })

def recordVersions (s : Session) (versions : List Int64) : Outcome × Session :=
  answered (fun _ => .impossible) (fun () => .done)
    (s.onStore fun store => store.run (Store.recordVersions versions).run)

def apply (s : Session) : Step → Outcome × Session
  | .request r => answered .request (.ofRequest r) (s.request r)
  | .record call => answered .request (.ofCall call) (s.perform call)
  | .isEnabled => (.ok (.flag s.enabled), s)
  | .describe => (.ok (.text s.describe), s)
  | .enable => (.ok .done, s.switch true)
  | .disable => (.ok .done, s.switch false)
  | .advance amount => s.setTime (s.clock.advance amount)
  | .setClock moment => s.setTime (s.clock.set moment)
  | .interfere i => (.ok .done, { s with interferences := s.interferences ++ [i] })
  | .migrate =>
    answered (fun e => .storage (s.plainly e)) (fun () => .done) (s.onStore OpenStore.migrate)
  | .checkHealth => answered .storage (fun () => .done) (s.onStore OpenStore.checkHealth)
  | .migrationStatus =>
    answered (fun e => .storage (s.plainly e)) .migration (s.onStore OpenStore.status)
  | .needsMigration => answered .storage .flag (s.onStore OpenStore.needsMigration)
  | .storePath => (.ok (.text s.store.path.text), s)
  | .close => (.ok .done, { s with store := s.store.close })
  | .reopen => answered .storage (fun () => .done) s.reopen
  | .fileExists file => (.ok (.flag (s.machine.exists? file)), s)
  | .dump => (.ok (.dump s.store.store.dump), s)
  | .versions => (.ok (.versions s.store.store.versions?), s)
  | .tableNames => (.ok (.tableNames s.store.store.tableNames?), s)
  | .recordVersions versions => s.recordVersions versions
  | .dropTable table => s.administer (·.dropTable? table)
  | .forbid guard => s.administer (·.forbid? guard)
  | .permit table kind => s.administer (·.permit? table kind)

/-- Takes a step and tells which record calls it made, in their order. -/
def take (s : Session) (step : Step) : (Outcome × List RecordCall.Method) × Session :=
  let (outcome, s) := { s with calls := [] }.apply step
  ((outcome, s.calls.reverse), { s with calls := [] })

end Latch.Session
