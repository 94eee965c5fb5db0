import Latch.Proofs.CommandLine.Meaning
import Latch.Proofs.Config.Overrides
import Latch.Proofs.Machine.Databases
import Latch.Proofs.Manager.Failures
import Latch.Proofs.Session.Run
import Latch.Proofs.Session.Switch

/-!
# The command line as one session

Every command line is a process of its own: it reads the settings, opens the store and migrates it,
makes one request, and leaves the store in its file. Run one after another on one file, commands on keys
do what a single session does that stays open: its requests are the same, and so are the answers, and what
is in the file is always what is in the store of the session.

* `Request.json` — an answer as it is written in JSON;
* `CommandLine.Served`, `Session.serveAll` — what a session answers to the requests of command lines;
* `CommandLine.Call.Uses`, `CommandLine.Used` — commands that come to the database when it is their turn;
* `CommandLine.Ran.Follows` — a command line has done and said what the session has;
* `Session.Mirrors` — what is in the file between two commands, next to the store of the session.

Main results:

* `CommandLine.DataCommand.run_cases` — a command makes its request and writes the answer;
* `Session.Mirrors.follows` — one command and one request, from the same tables to the same tables;
* `CommandLine.Call.rowsAt_run_of_failed` — a command that fails touches no row, unless the store fails;
* `command_line_refines_session` — all this for every sequence of commands.
-/

namespace Latch

open CommandLine (Call Ran Format jsonLine)
open OpenStore (tablesAt?)

/-! ## Requests -/

/-- An answer as it is written in JSON. No command adds or updates properties alone. -/
def Request.json : (r : Request) → r.Answer → Json
  | .status _, answer => answer.toJson
  | .lock .., outcome => .object [("outcome", outcome.toJson)]
  | .unlock _, () => .object [("unlocked", .boolean true)]
  | .properties _, entries => .ofTexts entries.inOrder
  | .property _ name, value? => .ofTexts (value?.toList.map fun value => (name, value))
  | .setProperties .., diff =>
    .object [("added", CommandLine.names diff.toAdd), ("updated", CommandLine.names diff.toUpdate)]
  | .deleteProperties _ names, () =>
    .object [("deleted", .array ((ByteOrder.inOrder id names).map .text))]
  | .deleteAllProperties _, () => .object [("cleared", .boolean true)]
  | .addProperties .., () | .updateProperties .., () => .null

/-- A manager over an open store asks the store alone, and nothing of its file. -/
theorem OpenStore.run_answer {α : Type} (p : Program Effect.Reply α) (now : Millis) (s : OpenStore) :
    p.run (OpenStore.answer now) s =
      ((p.run (Effect.answer now) s.store).1,
        { s with store := (p.run (Effect.answer now) s.store).2 }) := by
  induction p generalizing s with
  | done a => rfl
  | ask q next ih =>
    cases q with
    | readClock => exact ih now s
    | record call => exact ih _ _

/-- The same in a session, where calls are noted as well. -/
theorem Session.run_answer {α : Type} (p : Program Effect.Reply α) {s : Session}
    (hQuiet : s.interferences = []) :
    ∃ calls, p.run Session.answer s =
      ((p.run (Effect.answer s.time) s.store.store).1,
        { s with
          store := { s.store with store := (p.run (Effect.answer s.time) s.store.store).2 }
          calls }) := by
  induction p generalizing s with
  | done a => exact ⟨s.calls, rfl⟩
  | ask q next ih =>
    cases q with
    | readClock => exact ih s.time hQuiet
    | record call =>
      cases hObserved : s.wiring.isObserved with
      | true =>
        have hAnswer : Session.answer (.record call) s =
            { s with calls := call.method :: s.calls }.perform call := by
          rw [Session.answer, if_pos hObserved, performObserved_of_quiet hQuiet]
        obtain ⟨calls, hRest⟩ := ih (s.store.store.perform call).1
          (s := ({ s with calls := call.method :: s.calls }.perform call).2) hQuiet
        refine ⟨calls, ?_⟩
        rw [Program.run, hAnswer]
        exact hRest
      | false =>
        have hAnswer : Session.answer (.record call) s = s.perform call := by
          rw [Session.answer, hObserved]
          rfl
        obtain ⟨calls, hRest⟩ := ih (s.store.store.perform call).1 (s := (s.perform call).2) hQuiet
        refine ⟨calls, ?_⟩
        rw [Program.run, hAnswer]
        exact hRest

/-! ## Commands -/

namespace CommandLine

theorem inOrder_single (name : String) (value? : Option String) :
    (single name value?).inOrder = value?.toList.map fun value => (name, value) := by
  cases value? with
  | none => exact Properties.inOrder_of_isEmpty rfl
  | some value =>
    have hEntries : (single name (some value)).entries = [(name, value)] := by
      rw [single, Properties.entries_ofList (by simp)]
    rw [Properties.inOrder, hEntries]
    exact List.mergeSort_singleton _

/-- **A command makes its request and writes the answer**; a lock without a duration is refused. -/
theorem DataCommand.run_cases (c : DataCommand) (format : Format) (isQuiet enabled : Bool) (now : Millis)
    (s : OpenStore) :
    (c.request? = none ∧ c.run format isQuiet enabled now s = (.error .noDuration, s)) ∨
    ∃ r, ∃ write : r.Answer → String, c.request? = some r ∧
      c.run format isQuiet enabled now s = ask enabled now r write s ∧
      (format = .json → ∀ answer, write answer = jsonLine (r.json answer)) := by
  obtain ⟨key, action⟩ := c
  cases action with
  | status =>
    refine Or.inr ⟨_, _, rfl, rfl, ?_⟩
    rintro rfl answer
    rfl
  | lock duration? reasonCode reason =>
    cases duration? with
    | none => exact Or.inl ⟨rfl, rfl⟩
    | some duration =>
      refine Or.inr ⟨_, _, rfl, rfl, ?_⟩
      rintro rfl answer
      rfl
  | getProperties name? =>
    cases name? with
    | none =>
      refine Or.inr ⟨_, _, rfl, rfl, ?_⟩
      rintro rfl answer
      rfl
    | some name =>
      refine Or.inr ⟨_, _, rfl, rfl, ?_⟩
      rintro rfl answer
      exact congrArg (fun entries => jsonLine (.ofTexts entries)) (inOrder_single name answer)
  | unlock | setProperties | deleteProperties | clearProperties =>
    refine Or.inr ⟨_, _, rfl, rfl, ?_⟩
    rintro rfl answer
    rfl

variable {c : DataCommand} {i : Invocation} {machine after : Machine} {config : Config}
  {s : OpenStore} {db : Location} {call : Call}

/-- A request to an open store, and its answer as it is written. -/
theorem ask_eq (enabled : Bool) (now : Millis) (r : Request) (write : r.Answer → String)
    (s : OpenStore) :
    ask enabled now r write s =
      (match ((r.action enabled).run.run (Effect.answer now) s.store).1 with
        | .ok answer => .ok (write answer)
        | .error e => .error (.request e),
        { s with store := ((r.action enabled).run.run (Effect.answer now) s.store).2 }) := by
  unfold ask OpenStore.request
  rw [OpenStore.run_answer]
  cases ((r.action enabled).run.run (Effect.answer now) s.store).1 <;> rfl

/-- A command that has read the settings and opened the store leaves it in its file, whatever it does. -/
theorem runData_eq (c : DataCommand) (now : Millis) (hLoad : Config.load machine = .ok config)
    (hOpen : openStore config i.database? machine = (.ok s, after)) :
    runData c i now machine =
      (match (c.run i.format i.isQuiet config.perUserEnabled now s).1 with
        | .ok output => .ended output none
        | .error failure => .ended "" (some failure),
        (c.run i.format i.isQuiet config.perUserEnabled now s).2.leave after) := by
  unfold runData
  rw [hLoad]
  dsimp only
  rw [hOpen]
  dsimp only
  cases c.run i.format i.isQuiet config.perUserEnabled now s with
  | mk result s' => cases result <;> rfl

theorem Call.run_of_data (hWords : Invocation.ofWords call.words = .ok i)
    (hCommand : i.command = .data c) (machine : Machine) :
    call.run machine =
      ((runData c i call.now { machine with environment := call.seen machine }).1,
        { (runData c i call.now { machine with environment := call.seen machine }).2 with
          environment := call.environment }) := by
  rw [Call.run_eq hWords]
  unfold Invocation.run
  rw [hCommand]

/-! ## Command lines that come to a database -/

/-- The request that the words of a command line make. -/
def Call.request? (call : Call) : Option Request :=
  match Invocation.ofWords call.words with
  | .ok ⟨.data c, _, _, _⟩ => c.request?
  | _ => none

theorem Call.request?_eq (hWords : Invocation.ofWords call.words = .ok i)
    (hCommand : i.command = .data c) : call.request? = c.request? := by
  obtain ⟨command, format, isQuiet, database?⟩ := i
  cases hCommand
  rw [request?, hWords]

/-- The words are a command on a key; it finds settings that can be read, by which features may be
locked, and they or the words lead to a database. -/
def Call.Uses (call : Call) (machine : Machine) (db : Location) : Prop :=
  ∃ i c config, Invocation.ofWords call.words = .ok i ∧ i.command = .data c ∧
    Config.load { machine with environment := call.seen machine } = .ok config ∧
    config.perUserEnabled = true ∧
    (storeConfig config i.database? (call.seen machine)).LeadsTo
      { machine with environment := call.seen machine } db

/-- Command lines that come to a database, each of them when it is its turn. -/
inductive Used (db : Location) : List Call → Machine → Prop
  | nil (machine : Machine) : Used db [] machine
  | cons {call : Call} {rest : List Call} {machine : Machine} (hUses : call.Uses machine db)
      (hRest : Used db rest (call.run machine).2) : Used db (call :: rest) machine

/-- The answer to the request of a command line, if it makes one, and the tables after it. -/
structure Served where
  answer? : Option ((r : Request) × Except Error r.Answer)
  tables : Store.Tables

/-- A command line ends as a request was answered. -/
inductive Outcome.Tells (format : Format) :
    Option ((r : Request) × Except Error r.Answer) → Outcome → Prop
  | unasked : Tells format none (.ended "" (some .noDuration))
  | failed {r : Request} (e : Error) :
      Tells format (some ⟨r, .error e⟩) (.ended "" (some (.request e)))
  | answered {r : Request} {answer : r.Answer} {output : String}
      (hJson : format = .json → output = jsonLine (r.json answer)) :
      Tells format (some ⟨r, .ok answer⟩) (.ended output none)

/-- A command line has left the tables behind that a session has, and has given its answer. -/
structure Ran.Follows (db : Location) (ran : Ran) (served : Served) : Prop where
  tables : tablesAt? ran.after.files db = some served.tables
  outcome : ∃ i, Invocation.ofWords ran.call.words = .ok i ∧ ran.outcome.Tells i.format served.answer?

end CommandLine

/-! ## Commands that fail -/

namespace CommandLine

variable {machine : Machine} {call : Call}

/-- The words are a command on a key, or they are refused. -/
def Call.IsData (call : Call) : Prop :=
  ∀ i, Invocation.ofWords call.words = .ok i → ∃ c, i.command = .data c

/-- A failure of the record store, which is found by a statement. -/
def Outcome.IsStoreFailure (outcome : Outcome) : Prop :=
  ∃ output failed cause, outcome = .ended output (some (.request (.record failed cause)))

/-- A command that fails has done nothing, unless the store fails. -/
theorem DataCommand.run_failed {c : DataCommand} {format : Format} {isQuiet enabled : Bool}
    {now : Millis} {s : OpenStore} {failure : Failure}
    (h : (c.run format isQuiet enabled now s).1 = .error failure)
    (hStore : ∀ failed cause, failure ≠ .request (.record failed cause)) :
    (c.run format isQuiet enabled now s).2 = s := by
  rcases c.run_cases format isQuiet enabled now s with ⟨-, hRun⟩ | ⟨r, write, -, hRun, -⟩
  · rw [hRun]
  · rw [hRun, ask_eq] at h ⊢
    cases enabled with
    | false =>
      -- the switch is off, so nothing is asked of the store
      rw [Request.run_disabled]
      rfl
    | true =>
      have hFails := (Request.surfaces_action r).failsAsStore now s.store
      dsimp only at h
      split at h
      · cases h
      · rename_i e hError
        cases h
        obtain ⟨failed, cause, rfl⟩ := hFails e hError
        exact absurd rfl (hStore failed cause)

theorem rowsAt_runData {c : DataCommand} {i : Invocation} {now : Millis}
    (hExit : (runData c i now machine).1.exitCode ≠ 0)
    (hStore : ¬ (runData c i now machine).1.IsStoreFailure) :
    (runData c i now machine).2.files.rowsAt = machine.files.rowsAt := by
  cases hLoad : Config.load machine with
  | error e =>
    unfold runData
    rw [hLoad]
  | ok config =>
    obtain ⟨hRows, hInPlace⟩ := OpenStore.rowsAt_ofConfig machine
      (storeConfig config i.database? machine.environment)
    cases hOpen : openStore config i.database? machine with
    | mk result after =>
      have hOpened : OpenStore.ofConfig _ _ = (result, after) := hOpen
      rw [hOpened] at hRows hInPlace
      cases result with
      | error e =>
        unfold runData
        rw [hLoad]
        dsimp only
        rw [hOpen]
        exact hRows
      | ok s =>
        rw [runData_eq c now hLoad hOpen] at hExit hStore ⊢
        dsimp only at hExit hStore ⊢
        cases hCarried : (c.run i.format i.isQuiet config.perUserEnabled now s).1 with
        | ok output =>
          rw [hCarried] at hExit
          exact absurd rfl hExit
        | error failure =>
          rw [hCarried] at hStore
          have hSame := DataCommand.run_failed hCarried fun failed cause hFailure =>
            hStore ⟨_, failed, cause, by rw [hFailure]⟩
          rw [hSame]
          exact (hInPlace s rfl).rowsAt_leave.trans hRows

/-- **A command on a key that fails touches no row of any file**, unless the store fails. -/
theorem Call.rowsAt_run_of_failed (hData : call.IsData) (hExit : (call.run machine).1.exitCode ≠ 0)
    (hStore : ¬ (call.run machine).1.IsStoreFailure) :
    (call.run machine).2.files.rowsAt = machine.files.rowsAt := by
  cases hWords : Invocation.ofWords call.words with
  | error stop =>
    obtain ⟨outcome, hRun⟩ := run_of_error hWords
    rw [Call.run, hRun]
  | ok i =>
    obtain ⟨c, hCommand⟩ := hData i hWords
    rw [Call.run_of_data hWords hCommand] at hExit hStore ⊢
    have hRows := rowsAt_runData hExit hStore
    exact hRows

end CommandLine

/-! ## The session -/

open CommandLine (Served Used)

namespace Session

variable {s : Session} {call : Call} {machine : Machine} {db : Location}

/-- Makes the request of a command line in a session, when the clock shows the same time. -/
def serve (s : Session) (call : Call) : Served × Session :=
  let s := (s.apply (.setClock call.now)).2
  match call.request? with
  | none => (⟨none, s.store.store.tables⟩, s)
  | some r =>
    let (result, s) := s.request r
    (⟨some ⟨r, result⟩, s.store.store.tables⟩, s)

def serveAll : List Call → Session → List Served
  | [], _ => []
  | call :: rest, s =>
    let (served, s) := s.serve call
    served :: serveAll rest s

/-- A session is switched on, nothing interferes with it, and it reads its own clock. A migration of what
is in the file gives its store. -/
structure Mirrors (s : Session) (machine : Machine) (db : Location) : Prop where
  enabled : s.enabled = true
  quiet : s.interferences = []
  clock : s.wiring.systemTime? = none
  found : ∃ tables, tablesAt? machine.files db = some tables ∧
    Store.run ⟨tables, false⟩ Store.Migration.runAll.run = (.ok (), s.store.store)

/-- A session that was just opened on a file has what a migration makes of it. -/
theorem mirrors_of_start {config : StoreConfig} {isObserved : Bool} {now : Millis}
    (hStart : start (.file config) ⟨isObserved, none⟩ true now machine = .ok s)
    (hFile : s.store.file? = some db) : s.Mirrors machine db := by
  unfold start Source.open at hStart
  dsimp only at hStart
  cases hOpen : OpenStore.ofConfig machine config with
  | mk result after =>
    rw [hOpen] at hStart
    cases result with
    | error e => cases hStart
    | ok store =>
      cases hStart
      exact ⟨rfl, rfl, rfl, OpenStore.ofConfig_inv (congrArg Prod.fst hOpen) hFile⟩

theorem serve_of_none (hRequest : call.request? = none) (s : Session) :
    s.serve call = (⟨none, s.store.store.tables⟩, { s with clock := ⟨call.now⟩ }) := by
  unfold serve
  rw [hRequest]
  rfl

theorem serve_of_some {r : Request} {result : Except Error r.Answer} {store : Store}
    (hRequest : call.request? = some r) (hQuiet : s.interferences = [])
    (hClock : s.wiring.systemTime? = none)
    (hRun : (r.action s.enabled).run.run (Effect.answer call.now) s.store.store = (result, store)) :
    ∃ calls, s.serve call =
      (⟨some ⟨r, result⟩, store.tables⟩,
        { s with clock := ⟨call.now⟩, store := { s.store with store }, calls }) := by
  -- the clock of the session is the one that the manager reads
  have hTime : ({ s with clock := ⟨call.now⟩ } : Session).time = call.now := by
    rw [time, hClock]
    rfl
  obtain ⟨calls, hAnswer⟩ :=
    run_answer (r.action s.enabled).run (s := { s with clock := ⟨call.now⟩ }) hQuiet
  rw [hTime, hRun] at hAnswer
  have hRequested : ({ s with clock := ⟨call.now⟩ } : Session).request r = _ := hAnswer
  refine ⟨calls, ?_⟩
  unfold serve
  rw [hRequest]
  show (let (result, s) := ({ s with clock := ⟨call.now⟩ } : Session).request r
    ((⟨some ⟨r, result⟩, s.store.store.tables⟩, s) : Served × Session)) = _
  rw [hRequested]

/-- A store that was left in its file is opened again as it was, if it is current. -/
theorem found_of_leave {store : OpenStore} (after : Machine) (hFile : store.file? = some db)
    (hRoot : db ≠ []) (hCurrent : store.store.Current) :
    ∃ tables, tablesAt? (store.leave after).files db = some tables ∧
      Store.run ⟨tables, false⟩ Store.Migration.runAll.run = (.ok (), store.store) := by
  refine ⟨store.store.tables, OpenStore.tablesAt?_leave hFile hRoot, ?_⟩
  have hSame : (⟨store.store.tables, false⟩ : Store) = store.store := by
    rw [← hCurrent.isOpen]
  rw [hSame]
  exact hCurrent.run_runAll

/-- **One command and one request**, from the same tables to the same tables and with the same answer. -/
theorem Mirrors.follows (h : s.Mirrors machine db) (hUses : call.Uses machine db) :
    Ran.Follows db ⟨call, (call.run machine).1, (call.run machine).2⟩ (s.serve call).1 ∧
      (s.serve call).2.Mirrors (call.run machine).2 db := by
  obtain ⟨i, c, config, hWords, hCommand, hLoad, hOn, hLeads⟩ := hUses
  obtain ⟨tables, hTables, hMigrate⟩ := h.found
  obtain ⟨store, after, hOpen, hStore, hFile⟩ := hLeads.ofConfig_eq hTables hMigrate
  have hRoot : db ≠ [] := Files.ne_root_of_tablesAt? hTables
  have hCurrent : s.store.store.Current := Store.Current.of_run hMigrate
  have hRequest := CommandLine.Call.request?_eq hWords hCommand
  rw [CommandLine.Call.run_of_data hWords hCommand, CommandLine.runData_eq c call.now hLoad hOpen, hOn]
  rcases c.run_cases i.format i.isQuiet true call.now store with
    ⟨hNone, hCarried⟩ | ⟨r, write, hSome, hCarried, hJson⟩
  · -- nothing is asked for, so the store goes back as it was opened
    rw [serve_of_none (hRequest.trans hNone), hCarried]
    have hFound := found_of_leave after hFile hRoot (hStore ▸ hCurrent)
    rw [hStore] at hFound
    refine ⟨⟨?_, i, hWords, .unasked⟩, h.enabled, h.quiet, h.clock, hFound⟩
    rw [← hStore]
    exact OpenStore.tablesAt?_leave hFile hRoot
  · cases hRun : (r.action true).run.run (Effect.answer call.now) s.store.store with
    | mk result store' =>
      obtain ⟨calls, hServe⟩ :=
        serve_of_some (hRequest.trans hSome) h.quiet h.clock (by rw [h.enabled, hRun])
      have hAfter : store'.Current := by
        have hStill := hCurrent.after_action r true call.now
        rwa [hRun] at hStill
      rw [hServe, hCarried, CommandLine.ask_eq, hStore, hRun]
      have hFound := @found_of_leave _ { store with store := store' } after hFile hRoot hAfter
      refine ⟨⟨OpenStore.tablesAt?_leave hFile hRoot, i, hWords, ?_⟩, h.enabled, h.quiet, h.clock, hFound⟩
      cases result with
      | ok answer => exact .answered fun hFormat => hJson hFormat answer
      | error e => exact .failed e

/-- **Commands and requests one after another.** -/
theorem Mirrors.follows_all {calls : List Call} (h : s.Mirrors machine db)
    (hUsed : Used db calls machine) :
    List.Forall₂ (Ran.Follows db) (CommandLine.runAll calls machine) (serveAll calls s) := by
  induction hUsed generalizing s with
  | nil => exact .nil
  | cons hUses _ ih =>
    obtain ⟨hFirst, hNext⟩ := h.follows hUses
    exact .cons hFirst (ih hNext)

end Session

open CommandLine (Asked Invocation runAll)

/-- **The command line is one session.** Commands on keys are run one after another, each as a process
with variables of its own that reads the settings, and opens and migrates the store again. Each of them
finds the switch on when it is its turn, and comes to the same file. A session is opened on that file once,
and answers the same requests, with its clock set to the moment of each command. Variables may be loaded
from files in any way, and the path of a store may stand for any place.

* After every command the tables in the file are those of the session, with all rows of locks and
  properties. A request that succeeds in the session is written as its answer, in JSON where that is
  asked for; one that fails there is the failure of the command. A lock without a duration makes no
  request.
* What the request is: the options and words of the command line mean it.
* Every command line that means something is accepted.
* Whatever the machine is like, and whether the switch is on or not: a command on a key that exits with
  another code than zero changes no row of any file, and neither do words that are refused, unless a
  statement of the store has failed. -/
theorem command_line_refines_session {machine : Machine} {config : StoreConfig} {isObserved : Bool}
    {now : Millis} {session : Session} {db : Location} {calls : List Call}
    (hStart : Session.start (.file config) ⟨isObserved, none⟩ true now machine = .ok session)
    (hFile : session.store.file? = some db) (hUsed : Used db calls machine) :
    List.Forall₂ (Ran.Follows db) (runAll calls machine) (session.serveAll calls) ∧
    (∀ (call : Call) i c, Invocation.ofWords call.words = .ok i → i.command = .data c →
      Asked call.words c.key call.request? i.format) ∧
    (∀ words key request? format, Asked words key request? format →
      ∃ i c, Invocation.ofWords words = .ok i ∧ i.command = .data c ∧ c.key = key ∧ i.format = format) ∧
    (∀ (call : Call) (before : Machine), call.IsData → (call.run before).1.exitCode ≠ 0 →
      ¬ (call.run before).1.IsStoreFailure →
      (call.run before).2.files.rowsAt = before.files.rowsAt) := by
  refine ⟨(Session.mirrors_of_start hStart hFile).follows_all hUsed, ?_,
    fun _ _ _ _ hAsked => CommandLine.exists_ofWords hAsked,
    fun call before hData hExit hStore => call.rowsAt_run_of_failed hData hExit hStore⟩
  intro call i c hWords hCommand
  rw [CommandLine.Call.request?_eq hWords hCommand]
  exact CommandLine.asked_of_ofWords hWords hCommand

/-! Three processes on a new file: the first locks a feature, the second tells, and the third sets a
property. -/

def smsOtpCalls : List Call :=
  [["lock", "--indefinite"], ["status", "--format", "json"],
    ["props", "set", "limit=1", "limit=a=b"]].map fun words =>
      ⟨words ++ ["--user", "alice", "--tenant", "1", "--feature", "sms-otp", "--database", "/data/locks.db"],
        5, ⟨[(Environment.perUserLockingVariable, "true")], some ⟨"/root"⟩⟩⟩

/-- A session on a new file. -/
def smsOtpSession : Session where
  source := .file ⟨⟨"/data/locks.db"⟩, 5⟩
  wiring := ⟨true, none⟩
  enabled := true
  clock := ⟨0⟩
  store := ⟨⟨⟨some .empty, some .empty, some [1, 2], []⟩, false⟩, ⟨"/data/locks.db"⟩,
    some ["data", "locks.db"]⟩
  machine := (Machine.blank []).withFiles
    ⟨[(["data", "locks.db"], .file (.database ⟨some .empty, some .empty, some [1, 2], []⟩)),
      (["data"], .directory)]⟩
  interferences := []
  calls := []

theorem used_smsOtpCalls : Used ["data", "locks.db"] smsOtpCalls (Machine.blank []) := by
  refine .cons ⟨_, _, _, rfl, rfl, rfl, rfl, rfl, rfl, _, rfl, rfl⟩ ?_
  refine .cons ⟨_, _, _, rfl, rfl, rfl, rfl, rfl, rfl, _, rfl, rfl⟩ ?_
  exact .cons ⟨_, _, _, rfl, rfl, rfl, rfl, rfl, rfl, _, rfl, rfl⟩ (.nil _)

theorem command_line_refines_session_new :
    Session.start (.file ⟨⟨"/data/locks.db"⟩, 5⟩) ⟨true, none⟩ true 0 (Machine.blank []) =
        .ok smsOtpSession ∧
      List.Forall₂ (Ran.Follows ["data", "locks.db"]) (runAll smsOtpCalls (Machine.blank []))
        (smsOtpSession.serveAll smsOtpCalls) ∧
      (runAll smsOtpCalls (Machine.blank []))[1]?.map (·.outcome) =
        some (.ended (jsonLine (Lock.lockedUntil .last none none).toJson) none) :=
  have hStart : Session.start (.file ⟨⟨"/data/locks.db"⟩, 5⟩) ⟨true, none⟩ true 0 (Machine.blank []) =
      .ok smsOtpSession := rfl
  ⟨hStart, (command_line_refines_session hStart rfl used_smsOtpCalls).1, rfl⟩

end Latch
