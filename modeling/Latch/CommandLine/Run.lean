import Latch.CommandLine.Invocation
import Latch.Config.File
import Latch.Json.Record
import Latch.Manager
import Latch.Store.Opening

/-!
# Running an invocation

* `Outcome` — what a run writes, and how it ends;
* `OpenStore.request` — a request to a manager over an open store at a moment;
* `DataCommand.run` — a command on one key;
* `run` — a command line on a machine.

A command on a key reads the settings, opens the store, makes one request and closes the store. The
store's file is up to date after every command, also after one that fails.
-/

namespace Latch

/-! ## Requests to an open store -/

/-- Answers what a manager asks when the clock stands at `now`. -/
def OpenStore.answer (now : Millis) (effect : Effect) (s : OpenStore) : effect.Reply × OpenStore :=
  match effect with
  | .readClock => (now, s)
  | .record call => s.run call.script.run

def OpenStore.request (enabled : Bool) (now : Millis) (r : Request) (s : OpenStore) :
    Except Error r.Answer × OpenStore :=
  (r.action enabled).run.run (OpenStore.answer now) s

namespace CommandLine

/-! ## What a run gives -/

inductive Failure where
  | config (e : Config.Error)
  | storage (e : StorageError)
  | request (e : Error)
  /-- A lock without a duration. -/
  | noDuration
deriving DecidableEq, Repr

namespace Failure

def message : Failure → String
  | config e => e.message
  | storage e => e.message
  | request e => e.message
  | noDuration => "Either --duration-ms or --indefinite is required"

def hint? : Failure → Option String
  | request e => e.suggestion?
  | _ => none

end Failure

inductive Outcome where
  /-- The arguments were refused. -/
  | refused
  | ended (output : String) (failure? : Option Failure)
deriving DecidableEq, Repr

namespace Outcome

def exitCode : Outcome → UInt32
  | refused => 2
  | ended _ none => 0
  | ended _ (some _) => 1

end Outcome

/-! ## Output -/

def line (s : String) : String := s ++ "\n"

def jsonLine (json : Json) : String := line (String.ofList json.pretty)

/-- The line of a command that says little in words, and nothing if it is to be quiet. -/
def brief (format : Format) (isQuiet : Bool) (json : Json) (words : String) : String :=
  match format with
  | .json => jsonLine json
  | .text => if isQuiet then "" else line words

def names (p : Properties) : Json := .array (p.inOrder.map fun entry => .text entry.1)

def showStatus (format : Format) (key : Key) (lock : Lock) : String :=
  match format with
  | .json => jsonLine lock.toJson
  | .text => line (key.text ++ ": " ++ lock.text)

def showOutcome (format : Format) (isQuiet : Bool) (key : Key) (outcome : LockOutcome) : String :=
  brief format isQuiet (.object [("outcome", outcome.toJson)])
    ("Lock " ++ outcome.text ++ " (" ++ key.text ++ ")")

def showUnlocked (format : Format) (isQuiet : Bool) (key : Key) : String :=
  brief format isQuiet (.object [("unlocked", .boolean true)]) ("Unlocked " ++ key.text)

def showProperties (format : Format) (isQuiet : Bool) (key : Key) (p : Properties) : String :=
  match format with
  | .json => jsonLine (.ofTexts p.inOrder)
  | .text =>
    if p.isEmpty then if isQuiet then "" else line ("No properties for " ++ key.text ++ ".")
    else String.join (p.inOrder.map fun (name, value) => line (name ++ " = " ++ value))

def showDiff (format : Format) (isQuiet : Bool) (key : Key) (given : Properties)
    (diff : PropertyDiff) : String :=
  brief format isQuiet (.object [("added", names diff.toAdd), ("updated", names diff.toUpdate)])
    ("Set " ++ Decimal.natText given.size ++ " properties for " ++ key.text ++ " ("
      ++ Decimal.natText diff.toAdd.size ++ " added, " ++ Decimal.natText diff.toUpdate.size ++ " updated)")

def showDeleted (format : Format) (isQuiet : Bool) (key : Key) (given : List String) : String :=
  brief format isQuiet (.object [("deleted", .array ((ByteOrder.inOrder id given).map .text))])
    ("Deleted " ++ Decimal.natText given.length ++ " property names for " ++ key.text)

def showCleared (format : Format) (isQuiet : Bool) (key : Key) : String :=
  brief format isQuiet (.object [("cleared", .boolean true)])
    ("Cleared properties for " ++ key.text)

/-! ## Commands on a key -/

/-- The names of a list, each one once. -/
def distinct (given : List String) : List String :=
  (Properties.ofList (given.map fun name => (name, ""))).names

/-- A property as a set of at most one. -/
def single (name : String) : Option String → Properties
  | some value => .ofList [(name, value)]
  | none => ∅

/-- Makes a request and writes its answer. -/
def ask (enabled : Bool) (now : Millis) (r : Request) (write : r.Answer → String) (s : OpenStore) :
    Except Failure String × OpenStore :=
  match s.request enabled now r with
  | (.ok answer, s) => (.ok (write answer), s)
  | (.error e, s) => (.error (.request e), s)

def DataCommand.run (c : DataCommand) (format : Format) (isQuiet enabled : Bool) (now : Millis)
    (s : OpenStore) : Except Failure String × OpenStore :=
  match c.action with
  | .status => ask enabled now (.status c.key) (showStatus format c.key) s
  | .lock none _ _ => (.error .noDuration, s)
  | .lock (some duration) reasonCode reason =>
    ask enabled now (.lock c.key duration reasonCode reason) (showOutcome format isQuiet c.key) s
  | .unlock => ask enabled now (.unlock c.key) (fun () => showUnlocked format isQuiet c.key) s
  | .getProperties none =>
    ask enabled now (.properties c.key) (showProperties format isQuiet c.key) s
  | .getProperties (some name) =>
    ask enabled now (.property c.key name)
      (fun value => showProperties format isQuiet c.key (single name value)) s
  | .setProperties pairs =>
    let given := Properties.ofList pairs
    ask enabled now (.setProperties c.key given) (showDiff format isQuiet c.key given) s
  | .deleteProperties given =>
    let given := distinct given
    ask enabled now (.deleteProperties c.key given)
      (fun () => showDeleted format isQuiet c.key given) s
  | .clearProperties =>
    ask enabled now (.deleteAllProperties c.key) (fun () => showCleared format isQuiet c.key) s

/-- The store that the command line or the settings name. -/
def storeConfig (config : Config) (database? : Option Path) (environment : Environment) :
    StoreConfig :=
  match database? with
  | some path => ⟨path, config.store.maxConnections⟩
  | none => .ofSettings environment config.store

def openStore (config : Config) (database? : Option Path) (machine : Machine) :
    Except StorageError OpenStore × Machine :=
  OpenStore.ofConfig machine (storeConfig config database? machine.environment)

def runData (c : DataCommand) (i : Invocation) (now : Millis) (machine : Machine) :
    Outcome × Machine :=
  match Config.load machine with
  | .error e => (.ended "" (some (.config e)), machine)
  | .ok config =>
    match openStore config i.database? machine with
    | (.error e, machine) => (.ended "" (some (.storage e)), machine)
    | (.ok s, machine) =>
      match c.run i.format i.isQuiet config.perUserEnabled now s with
      | (.ok output, s) => (.ended output none, s.leave machine)
      | (.error failure, s) => (.ended "" (some failure), s.leave machine)

/-! ## Commands on the settings -/

def unlessQuiet (isQuiet : Bool) (s : String) : String := if isQuiet then "" else line s

/-- Writes what a command on the settings has found. -/
def shown (machine : Machine) : Except Config.Error String → Outcome × Machine
  | .ok output => (.ended output none, machine)
  | .error e => (.ended "" (some (.config e)), machine)

/-- Writes what a command on the settings has done. -/
def finished (output : String) : Except Config.Error Unit × Machine → Outcome × Machine
  | (.ok (), machine) => (.ended output none, machine)
  | (.error e, machine) => (.ended "" (some (.config e)), machine)

/-- The settings of the file with one of them changed. What the environment overrides is not in
them. -/
def changedConfig (name text : String) (machine : Machine) : Except Config.Error Config := do
  (← Config.loadFrom machine (← Config.settingsFile machine)).set name text

/-- Changes a setting in the file. -/
def setConfig (name text : String) (machine : Machine) : Except Config.Error Unit × Machine :=
  match changedConfig name text machine with
  | .error e => (.error e, machine)
  | .ok config => config.save machine

def ConfigCommand.run (c : ConfigCommand) (isQuiet : Bool) (machine : Machine) :
    Outcome × Machine :=
  match c with
  | .get name => shown machine do return line (← (← Config.load machine).get name)
  | .set name text =>
    finished (unlessQuiet isQuiet ("Set " ++ name ++ " = " ++ text)) (setConfig name text machine)
  | .list => shown machine do
    return String.join ((← Config.load machine).list.map fun (name, value) =>
      line (name ++ " = " ++ value))
  | .reset =>
    finished (unlessQuiet isQuiet "Configuration reset to defaults.") (Config.reset machine)
  | .path => shown machine do return line (← Config.settingsFile machine).text

/-! ## The check of health -/

def doctorHeading : List String := ["Featurelock Health Check", "========================", ""]

def switchLines (enabled : Bool) : List String :=
  if enabled then ["[OK] Per-user feature locking: Enabled"]
  else ["[!!] Per-user feature locking: Disabled",
    "     Run `featurelock config set feature_locking.per_user_enabled true`"]

def lines (isQuiet : Bool) (content : List String) : String :=
  if isQuiet then "" else String.join (content.map line)

/-- Examines a store that was opened. -/
def examine (s : OpenStore) : Except StorageError Store.Migration.Status × OpenStore :=
  match s.checkHealth with
  | (.error e, s) => (.error e, s)
  | (.ok (), s) => s.status

def storeLine (path : Path) (status : Store.Migration.Status) : String :=
  "[OK] Database: " ++ path.text ++ " (schema v" ++ Decimal.intText status.current.toInt
    ++ "/" ++ Decimal.intText status.target.toInt ++ ")"

/-- Checks the settings and the store. A fault of the settings is written even in quiet mode. -/
def doctor (database? : Option Path) (isQuiet : Bool) (machine : Machine) : Outcome × Machine :=
  match Config.load machine with
  | .error e =>
    (.ended (lines isQuiet doctorHeading ++ line ("[!!] Configuration: " ++ e.message))
      (some (.config e)), machine)
  | .ok config =>
    let seen := doctorHeading ++ ["[OK] Configuration: Valid"] ++ switchLines config.perUserEnabled
    match openStore config database? machine with
    | (.error e, machine) => (.ended (lines isQuiet seen) (some (.storage e)), machine)
    | (.ok s, machine) =>
      match examine s with
      | (.error e, s) => (.ended (lines isQuiet seen) (some (.storage e)), s.leave machine)
      | (.ok status, s) =>
        (.ended (lines isQuiet (seen ++ [storeLine s.path status])) none, s.leave machine)

/-! ## Command lines -/

def Invocation.run (i : Invocation) (now : Millis) (machine : Machine) : Outcome × Machine :=
  match i.command with
  | .data c => runData c i now machine
  | .config c => c.run i.isQuiet machine
  | .doctor => doctor i.database? i.isQuiet machine

def versionText : String := "featurelock 0.1.0"

def helpLines : List String :=
  ["Per-user feature locks with attached properties", "", "Usage: featurelock [OPTIONS] <COMMAND>",
    "", "Commands:", "  status, lock, unlock, props, config, doctor, help"]

/-- Runs a command line at a moment. The variables of a file count for this run only. -/
def run (words : List String) (now : Millis) (machine : Machine) : Outcome × Machine :=
  match Invocation.ofWords words with
  | .error .refused => (.refused, machine)
  | .error .version => (.ended (line versionText) none, machine)
  | .error .help => (.ended (lines false helpLines) none, machine)
  | .ok i =>
    let (outcome, after) :=
      i.run now { machine with environment := machine.loadedEnvironment }
    (outcome, { after with environment := machine.environment })

end CommandLine

end Latch
