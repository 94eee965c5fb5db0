import Latch.CommandLine.Run
import Latch.Proofs.Machine.VariableFile
import Mathlib.Data.List.Forall2

/-!
# Overrides are not saved

The environment can override the switch, for as long as a command runs. Commands that change the
settings go by what the file says, so an override decides about what is shown and about nothing else:
two runs of the same commands under different overrides leave the same files behind.

* `Machine.SparesVariables` — nothing that the environment is made of has changed;
* `CommandLine.Call`, `CommandLine.runAll` — command lines, one after another;
* `CommandLine.Call.Alike` — two command lines that differ in the override;
* `CommandLine.Ran.Alike` — what they have in common after they were run.

Main results:

* `CommandLine.ConfigCommand.run_environment` — what changes the settings does not look at overrides;
* `CommandLine.ConfigCommand.spares_run` — and leaves the variable file alone;
* `CommandLine.Call.alike_of_unreferring` — how to tell that command lines differ in the override;
* `overrides_never_saved` — runs that differ in the override leave the same files behind.
-/

namespace Latch

open VariableFile (SameAround)
open Environment (AgreeExcept perUserLockingVariable)

/-! ## Variable files are left alone -/

/-- Nothing that the environment of a program is made of has changed: the current directory, the
variable files around it, and how they are read. -/
structure Machine.SparesVariables (machine machine' : Machine) : Prop where
  here : machine'.here = machine.here
  libraries : machine'.libraries = machine.libraries
  files : SameAround machine.here machine.files machine'.files

namespace Machine.SparesVariables

variable {machine machine' machine'' : Machine}

theorem refl (machine : Machine) : SparesVariables machine machine :=
  ⟨rfl, rfl, SameAround.refl _ _⟩

theorem trans (h : SparesVariables machine machine') (h' : SparesVariables machine' machine'') :
    SparesVariables machine machine'' := by
  have hFiles := h'.files
  rw [h.here] at hFiles
  exact ⟨h'.here.trans h.here, h'.libraries.trans h.libraries, h.files.trans hFiles⟩

/-- Variables of a process are not looked at. -/
theorem with_environment {environment : Environment}
    (h : SparesVariables { machine with environment } machine') (environment' : Environment) :
    SparesVariables machine { machine' with environment := environment' } :=
  ⟨h.here, h.libraries, h.files⟩

/-- A program sees the same variables as before. -/
theorem loadedEnvironment_eq (h : SparesVariables machine machine')
    (hLoads : machine.libraries.LoadsNearby) (environment : Environment) :
    ({ machine' with environment } : Machine).loadedEnvironment =
      ({ machine with environment } : Machine).loadedEnvironment := by
  show machine'.libraries.loadVariables machine'.files machine'.here environment = _
  rw [h.libraries, h.here]
  exact hLoads _ _ _ h.files environment

end Machine.SparesVariables

namespace Config

open Machine (SparesVariables)

variable {config : Config} {machine : Machine} {file : Path} {location : Location}

/-! ## The settings file -/

/-- The name of the settings file. -/
def IsSettingsFile (file : Path) : Prop := ∃ directory : Path, file = directory.join "config.toml"

theorem isSettingsFile_of_ok (h : settingsFile machine = .ok file) : IsSettingsFile file := by
  unfold settingsFile at h
  split at h
  · rename_i found hPath
    cases h
    obtain ⟨directory, -, rfl⟩ := Option.map_eq_some_iff.mp hPath
    exact ⟨directory, rfl⟩
  · cases h

/-- The settings file has another name than variable files have. -/
theorem ne_variableFile (hFile : IsSettingsFile file)
    (hResolve : machine.files.resolve? machine.here file = some location) (directory : Location) :
    directory ++ [VariableFile.fileName] ≠ location := by
  obtain ⟨directory', rfl⟩ := hFile
  have hPlain : Files.IsPlain "config.toml" := by decide
  obtain ⟨parent, rfl⟩ := Files.resolve?_join hPlain (by decide) hResolve
  -- if the two were in one place, then they would have one name
  intro hSame
  have hNames : [VariableFile.fileName] = ["config.toml"] := (List.append_inj' hSame rfl).2
  simp [VariableFile.fileName] at hNames

theorem spares_writeTo (hFile : IsSettingsFile file) (config : Config) (machine : Machine) :
    SparesVariables machine (config.writeTo file machine).2 := by
  unfold writeTo
  split
  · rename_i files' hWrite
    obtain ⟨location, hResolve, -, rfl⟩ := Files.write?_eq_some hWrite
    exact ⟨rfl, rfl, fun directory _ =>
      Files.sameFile_put_file (ne_variableFile hFile hResolve directory)⟩
  · exact .refl machine

theorem spares_saveTo (hFile : IsSettingsFile file) (config : Config) (machine : Machine) :
    SparesVariables machine (config.saveTo file machine).2 := by
  unfold saveTo
  split
  · exact .refl machine
  · split
    · exact spares_writeTo hFile config machine
    · rename_i directory _
      -- directories are made first, also if they are not all made
      obtain ⟨-, hSame⟩ := Files.makeDirectories_keeps machine.files machine.here directory
      split
      · rename_i files hMade
        rw [hMade] at hSame
        have hDirectories : SparesVariables machine (machine.withFiles files) :=
          ⟨rfl, rfl, fun _ _ => hSame _⟩
        exact hDirectories.trans (spares_writeTo hFile config _)
      · rename_i files hMade
        rw [hMade] at hSame
        exact ⟨rfl, rfl, fun _ _ => hSame _⟩

theorem spares_remove (hFile : IsSettingsFile file) (machine : Machine) :
    SparesVariables machine (remove file machine).2 := by
  unfold remove
  split
  · split
    · rename_i files' hRemove
      obtain ⟨location, hResolve, -, rfl⟩ := Files.remove?_eq_some hRemove
      exact ⟨rfl, rfl, fun directory _ =>
        Files.sameFile_erase (ne_variableFile hFile hResolve directory)⟩
    · exact .refl machine
  · exact .refl machine

variable {operation : Path → Machine → Except Error Unit × Machine}

/-- An operation on the settings file spares the variable files if it does so for any file of that
name. -/
theorem spares_atSettingsFile
    (h : ∀ file, IsSettingsFile file → SparesVariables machine (operation file machine).2) :
    SparesVariables machine (atSettingsFile operation machine).2 := by
  unfold atSettingsFile
  split
  · rename_i file hFile
    exact h file (isSettingsFile_of_ok hFile)
  · exact .refl machine

theorem spares_save (config : Config) (machine : Machine) :
    SparesVariables machine (config.save machine).2 :=
  spares_atSettingsFile fun _ hFile => spares_saveTo hFile config machine

theorem spares_reset (machine : Machine) : SparesVariables machine (reset machine).2 :=
  spares_atSettingsFile fun _ hFile => spares_remove hFile machine

/-! ## What does not look at the environment -/

variable {environment : Environment}

theorem writeTo_environment (config : Config) (file : Path) (machine : Machine)
    (environment : Environment) :
    config.writeTo file { machine with environment } =
      ((config.writeTo file machine).1, { (config.writeTo file machine).2 with environment }) := by
  unfold writeTo
  dsimp only
  cases machine.files.writeText? machine.here file config.render <;> rfl

theorem saveTo_environment (config : Config) (file : Path) (machine : Machine)
    (environment : Environment) :
    config.saveTo file { machine with environment } =
      ((config.saveTo file machine).1, { (config.saveTo file machine).2 with environment }) := by
  unfold saveTo
  dsimp only
  cases config.validate with
  | error e => rfl
  | ok =>
    cases file.parent? with
    | none => exact writeTo_environment config file machine environment
    | some directory =>
      dsimp only
      cases machine.files.makeDirectories machine.here directory with
      | mk made files =>
        cases made with
        | true => exact writeTo_environment config file (machine.withFiles files) environment
        | false => rfl

theorem remove_environment (file : Path) (machine : Machine) (environment : Environment) :
    remove file { machine with environment } =
      ((remove file machine).1, { (remove file machine).2 with environment }) := by
  have hThere : ({ machine with environment } : Machine).exists? file = machine.exists? file := rfl
  unfold remove
  rw [hThere]
  dsimp only
  cases machine.exists? file with
  | false => rfl
  | true =>
    simp only [if_true]
    cases machine.files.remove? machine.here file <;> rfl

/-- Only the place of the file depends on the environment. -/
theorem settingsFile_environment (machine : Machine)
    (hPath : environment.configPath = machine.configPath) :
    settingsFile { machine with environment } = settingsFile machine := by
  have hSame : ({ machine with environment } : Machine).configPath = machine.configPath := hPath
  unfold settingsFile
  rw [hSame]

theorem atSettingsFile_environment (hPath : environment.configPath = machine.configPath)
    (h : ∀ file, operation file { machine with environment } =
      ((operation file machine).1, { (operation file machine).2 with environment })) :
    atSettingsFile operation { machine with environment } =
      ((atSettingsFile operation machine).1,
        { (atSettingsFile operation machine).2 with environment }) := by
  unfold atSettingsFile
  rw [settingsFile_environment machine hPath]
  cases settingsFile machine with
  | ok file => exact h file
  | error e => rfl

theorem save_environment (config : Config) (machine : Machine)
    (hPath : environment.configPath = machine.configPath) :
    config.save { machine with environment } =
      ((config.save machine).1, { (config.save machine).2 with environment }) :=
  atSettingsFile_environment hPath fun file => saveTo_environment config file machine environment

theorem reset_environment (machine : Machine)
    (hPath : environment.configPath = machine.configPath) :
    reset { machine with environment } =
      ((reset machine).1, { (reset machine).2 with environment }) :=
  atSettingsFile_environment hPath fun file => remove_environment file machine environment

end Config

namespace CommandLine

open Machine (SparesVariables)

/-! ## Commands on the settings -/

/-- Whether a command shows settings, and does not change them or tell where they are. -/
def ConfigCommand.shows : ConfigCommand → Bool
  | .get _ | .list => true
  | _ => false

variable {machine : Machine} {environment : Environment}

theorem spares_setConfig (name text : String) (machine : Machine) :
    SparesVariables machine (setConfig name text machine).2 := by
  unfold setConfig
  split
  · exact .refl machine
  · exact Config.spares_save _ machine

/-- A setting is changed in what the file says, whatever overrides it. -/
theorem setConfig_environment (name text : String) (machine : Machine)
    (hPath : environment.configPath = machine.configPath) :
    setConfig name text { machine with environment } =
      ((setConfig name text machine).1, { (setConfig name text machine).2 with environment }) := by
  have hChanged : changedConfig name text { machine with environment } =
      changedConfig name text machine := by
    unfold changedConfig
    rw [Config.settingsFile_environment machine hPath]
    rfl
  unfold setConfig
  rw [hChanged]
  cases changedConfig name text machine with
  | error e => rfl
  | ok config => exact Config.save_environment config machine hPath

namespace ConfigCommand

variable {c : ConfigCommand}

theorem snd_shown (machine : Machine) (found : Except Config.Error String) :
    (shown machine found).2 = machine := by
  cases found <;> rfl

theorem snd_finished (output : String) (done : Except Config.Error Unit × Machine) :
    (finished output done).2 = done.2 := by
  obtain ⟨result, after⟩ := done
  cases result <;> rfl

/-- A command that shows settings changes nothing. -/
theorem run_of_shows (hShows : c.shows = true) (isQuiet : Bool) (machine : Machine) :
    (c.run isQuiet machine).2 = machine := by
  cases c with
  | get | list => exact snd_shown machine _
  | _ => cases hShows

/-- **Any other command does not look at overrides**: in an environment that has the settings in the same
place it does the same. -/
theorem run_environment (hShows : c.shows = false) (isQuiet : Bool) (machine : Machine)
    (hPath : environment.configPath = machine.configPath) :
    c.run isQuiet { machine with environment } =
      ((c.run isQuiet machine).1, { (c.run isQuiet machine).2 with environment }) := by
  have hFinished : ∀ (output : String) (done : Except Config.Error Unit × Machine),
      finished output (done.1, { done.2 with environment }) =
        ((finished output done).1, { (finished output done).2 with environment }) := by
    intro output done
    obtain ⟨result, after⟩ := done
    cases result <;> rfl
  cases c with
  | get | list => cases hShows
  | set name text =>
    have hSet := setConfig_environment name text machine hPath
    exact (congrArg (finished _) hSet).trans (hFinished _ _)
  | reset =>
    have hReset := Config.reset_environment machine hPath
    exact (congrArg (finished _) hReset).trans (hFinished _ _)
  | path =>
    unfold run
    rw [Config.settingsFile_environment machine hPath]
    cases Config.settingsFile machine <;> rfl

/-- No command on the settings touches a variable file. -/
theorem spares_run (c : ConfigCommand) (isQuiet : Bool) (machine : Machine) :
    SparesVariables machine (c.run isQuiet machine).2 := by
  cases c with
  | get | list | path =>
    unfold run
    rw [snd_shown]
    exact .refl machine
  | set name text =>
    unfold run
    rw [snd_finished]
    exact spares_setConfig name text machine
  | reset =>
    unfold run
    rw [snd_finished]
    exact Config.spares_reset machine

end ConfigCommand

/-! ## Command lines one after another -/

/-- A command line with the moment and the variables of its process. -/
structure Call where
  words : List String
  now : Millis
  environment : Environment

/-- A command line that was run, how it ended, and the machine after it. -/
structure Ran where
  call : Call
  outcome : Outcome
  after : Machine

namespace Call

def run (call : Call) (machine : Machine) : Outcome × Machine :=
  CommandLine.run call.words call.now { machine with environment := call.environment }

/-- What the command is, if the words are a command on the settings. -/
def command? (call : Call) : Option ConfigCommand :=
  match Invocation.ofWords call.words with
  | .ok ⟨.config c, _, _, _⟩ => some c
  | _ => none

/-- The words are a command on the settings, or none at all. -/
def IsAboutSettings (call : Call) : Prop :=
  ∀ i, Invocation.ofWords call.words = .ok i → ∃ c, i.command = .config c

/-- Whether the words are a command that shows settings. -/
def shows (call : Call) : Bool := call.command?.any ConfigCommand.shows

/-- The variables that the program sees, with those of the variable file. -/
def seen (call : Call) (machine : Machine) : Environment :=
  ({ machine with environment := call.environment } : Machine).loadedEnvironment

/-- The same command line, with variables that differ in the one that overrides the switch. -/
structure Alike (machine : Machine) (call call' : Call) : Prop where
  words : call.words = call'.words
  now : call.now = call'.now
  seen : AgreeExcept perUserLockingVariable (call.seen machine) (call'.seen machine)

end Call

namespace Ran

/-- What is found in the place of the settings file. -/
def settings? (r : Ran) : Option Node :=
  r.after.loadedEnvironment.configPath.bind (r.after.files.nodeAt? r.after.here)

/-- The same files are left, with the same settings among them. The outcomes are the same too, unless the
command was to show settings. -/
structure Alike (r r' : Ran) : Prop where
  words : r.call.words = r'.call.words
  files : r.after.files = r'.after.files
  settings : r.settings? = r'.settings?
  outcome : r.call.shows = false → r.outcome = r'.outcome

end Ran

/-- Runs one command line after another, each with variables of its own. -/
def runAll : List Call → Machine → List Ran
  | [], _ => []
  | call :: rest, machine =>
    let (outcome, after) := call.run machine
    ⟨call, outcome, after⟩ :: runAll rest after

theorem runAll_cons (call : Call) (rest : List Call) (machine : Machine) :
    runAll (call :: rest) machine =
      ⟨call, (call.run machine).1, (call.run machine).2⟩ :: runAll rest (call.run machine).2 := rfl

/-- The variables that a machine had before make no difference. -/
theorem runAll_environment (calls : List Call) (machine : Machine) (environment : Environment) :
    runAll calls { machine with environment } = runAll calls machine := by
  cases calls <;> rfl

/-- Words that are no command change nothing, and are answered alike everywhere. -/
theorem run_of_error {words : List String} {stop : Stop}
    (hWords : Invocation.ofWords words = .error stop) :
    ∃ outcome, ∀ now machine, run words now machine = (outcome, machine) := by
  unfold run
  rw [hWords]
  cases stop with
  | refused => exact ⟨_, fun _ _ => rfl⟩
  | version => exact ⟨_, fun _ _ => rfl⟩
  | help => exact ⟨_, fun _ _ => rfl⟩

namespace Call

variable {call call' : Call} {i : Invocation} {c : ConfigCommand}

theorem shows_of_ofWords (hWords : Invocation.ofWords call.words = .ok i)
    (hCommand : i.command = .config c) : call.shows = c.shows := by
  obtain ⟨command, format, isQuiet, database?⟩ := i
  cases hCommand
  rw [shows, command?, hWords]
  rfl

/-- A command is run with the variables that it sees, and those of the process stay as they were. -/
theorem run_eq (hWords : Invocation.ofWords call.words = .ok i) (machine : Machine) :
    call.run machine =
      ((i.run call.now { machine with environment := call.seen machine }).1,
        { (i.run call.now { machine with environment := call.seen machine }).2 with
          environment := call.environment }) := by
  unfold run CommandLine.run
  rw [hWords]
  rfl

theorem run_of_ofWords (hWords : Invocation.ofWords call.words = .ok i)
    (hCommand : i.command = .config c) (machine : Machine) :
    call.run machine =
      ((c.run i.isQuiet { machine with environment := call.seen machine }).1,
        { (c.run i.isQuiet { machine with environment := call.seen machine }).2 with
          environment := call.environment }) := by
  rw [run_eq hWords]
  unfold Invocation.run
  simp only [hCommand]

/-- One command line, run with variables that differ in the override. -/
theorem run_alike (hSettings : call.IsAboutSettings) (h : Alike machine call call') :
    SparesVariables machine (call.run machine).2 ∧
      (call.run machine).2.environment = call.environment ∧
      (call'.run machine).2 = { (call.run machine).2 with environment := call'.environment } ∧
      (call.shows = false → (call.run machine).1 = (call'.run machine).1) := by
  cases hWords : Invocation.ofWords call.words with
  | error stop =>
    obtain ⟨outcome, hRun⟩ := run_of_error hWords
    have hLeft : call.run machine = (outcome, { machine with environment := call.environment }) :=
      hRun call.now _
    have hRight : call'.run machine = (outcome, { machine with environment := call'.environment }) := by
      rw [run, ← h.words, hRun]
    rw [hLeft, hRight]
    exact ⟨(SparesVariables.refl _).with_environment call.environment, rfl, rfl, fun _ => rfl⟩
  | ok i =>
    obtain ⟨c, hCommand⟩ := hSettings i hWords
    have hWords' : Invocation.ofWords call'.words = .ok i := by rw [← h.words, hWords]
    rw [shows_of_ofWords hWords hCommand, run_of_ofWords hWords hCommand,
      run_of_ofWords hWords' hCommand]
    have hSpares := c.spares_run i.isQuiet { machine with environment := call.seen machine }
    refine ⟨hSpares.with_environment call.environment, rfl, ?_⟩
    cases hShows : c.shows with
    | true =>
      -- the two runs leave the machine as they find it
      have hLeft := ConfigCommand.run_of_shows hShows i.isQuiet
        { machine with environment := call.seen machine }
      have hRight := ConfigCommand.run_of_shows hShows i.isQuiet
        { machine with environment := call'.seen machine }
      rw [hLeft, hRight]
      exact ⟨rfl, nofun⟩
    | false =>
      -- both runs look for the settings in the same place
      have hPath : (call'.seen machine).configPath = (call.seen machine).configPath :=
        h.seen.configPath_eq.symm
      have hRun := ConfigCommand.run_environment hShows i.isQuiet
        { machine with environment := call.seen machine } hPath
      dsimp only at hRun ⊢
      rw [hRun]
      exact ⟨rfl, fun _ => rfl⟩

/-- If the variable file has no references, then it is enough that the processes have variables that
differ in the override alone. -/
theorem alike_of_unreferring (hWords : call.words = call'.words) (hNow : call.now = call'.now)
    (hStandard : machine.libraries = .standard)
    (hFile : ∀ content, VariableFile.find? machine.files machine.here = some content →
      VariableFile.Unreferring (VariableFile.leadingText content).toList)
    (h : AgreeExcept perUserLockingVariable call.environment call'.environment) :
    Alike machine call call' := by
  refine ⟨hWords, hNow, ?_⟩
  unfold seen Machine.loadedEnvironment
  dsimp only
  rw [hStandard]
  exact VariableFile.agree_load hFile h

/-- Command lines that are alike stay so while the variable files stay. -/
theorem Alike.spared {after : Machine} (h : Alike machine call call')
    (hSpares : SparesVariables machine after) (hLoads : machine.libraries.LoadsNearby) :
    Alike after call call' := by
  have hSame : ∀ call : Call, call.seen after = call.seen machine :=
    fun call => hSpares.loadedEnvironment_eq hLoads call.environment
  refine ⟨h.words, h.now, ?_⟩
  rw [hSame, hSame]
  exact h.seen

end Call

end CommandLine

open CommandLine (Call Ran runAll)

/-- **Overrides never end up in the file.** Commands on the settings are run one after another, whatever
their arguments are, on a machine with any files; among them may be words that are no command. They are
run once more from the start, with variables that differ from those of the first run in the one that
overrides the switch and in no other. It may be missing, it may say yes or no, or make no sense, and it may
be another one for every command.

After every command the files are the same in both runs, and so is what is found in the place of the
settings file, if there is a place for it. Commands that set, reset, or tell the place end in the same
way, also where they fail because there is none.

The variables are those that the program sees, with those of the variable file. If that file gives the
value of the override to another variable, then the runs differ in more than the override. Variables may
be loaded in any way that looks at the variable files around the current directory alone. -/
theorem overrides_never_saved {machine : Machine} {calls calls' : List Call}
    (hLoads : machine.libraries.LoadsNearby)
    (hSettings : ∀ call ∈ calls, call.IsAboutSettings)
    (hAlike : List.Forall₂ (Call.Alike machine) calls calls') :
    List.Forall₂ Ran.Alike (runAll calls machine) (runAll calls' machine) := by
  induction calls generalizing calls' machine with
  | nil =>
    cases hAlike
    exact .nil
  | cons call rest ih =>
    obtain ⟨call', rest', hFirst, hRest, rfl⟩ := List.forall₂_cons_left_iff.mp hAlike
    obtain ⟨hOwn, hOthers⟩ := List.forall_mem_cons.mp hSettings
    obtain ⟨hSpares, hKept, hAfter, hOutcome⟩ := Call.run_alike hOwn hFirst
    rw [CommandLine.runAll_cons, CommandLine.runAll_cons, hAfter,
      CommandLine.runAll_environment rest']
    generalize call.run machine = ran at hSpares hKept hOutcome
    have hStill := hFirst.spared hSpares hLoads
    refine .cons ⟨hFirst.words, rfl, ?_, hOutcome⟩ ?_
    · -- the settings are still looked for in one place
      have hLeft : ran.2.loadedEnvironment = call.seen ran.2 := by
        unfold Call.seen
        rw [← hKept]
      have hPlace : ran.2.loadedEnvironment.configPath = (call'.seen ran.2).configPath := by
        rw [hLeft, hStill.seen.configPath_eq]
      exact congrArg (fun place : Place => place.bind (ran.2.files.nodeAt? ran.2.here)) hPlace
    · exact ih (hSpares.libraries ▸ hLoads) hOthers
        (hRest.imp fun _ _ hNext => hNext.spared hSpares hLoads)

/-! A command that shows settings fails under an override that makes no sense. The file is written and
removed all the same. -/

/-- A machine with a variable file above the current directory, which names the home directory. -/
def atHome : Machine := (Machine.blank ["work", "sub"]).putFile ⟨"/work/.env"⟩ (.text "HOME=/root\n")

def settingsCalls (override : String) : List Call :=
  [["config", "set", "database.max_connections", "9"], ["config", "list"], ["config", "reset"]].map
    fun words => ⟨words, 0, ⟨[(perUserLockingVariable, override)], none⟩⟩

theorem alike_atHome (words : List String) (override override' : String) :
    Call.Alike atHome ⟨words, 0, ⟨[(perUserLockingVariable, override)], none⟩⟩
      ⟨words, 0, ⟨[(perUserLockingVariable, override')], none⟩⟩ := by
  have hFound : VariableFile.find? atHome.files atHome.here = some (.text "HOME=/root\n") := by rfl
  refine CommandLine.Call.alike_of_unreferring rfl rfl rfl ?_ ⟨?_, rfl⟩
  · intro content hFile
    cases hFound.symm.trans hFile
    have hText : '$' ∉ "HOME=/root\n".toList := by decide
    exact hText
  · intro name hName
    have hOther : (name == perUserLockingVariable) = false := by simpa using hName
    simp only [Environment.get?, List.lookup_cons, hOther]

theorem overrides_never_saved_senseless :
    List.Forall₂ Ran.Alike (runAll (settingsCalls "yes") atHome)
        (runAll (settingsCalls "maybe") atHome) ∧
      (runAll (settingsCalls "maybe") atHome)[1]?.map (·.outcome) =
        some (.ended "" (some (.config (.invalidOverride "maybe")))) := by
  have hSettings : ∀ call ∈ settingsCalls "yes", call.IsAboutSettings := by
    simp only [settingsCalls, List.map_cons, List.map_nil, List.forall_mem_cons]
    refine ⟨fun i hWords => ?_, fun i hWords => ?_, fun i hWords => ?_, by simp⟩
    · have hSet : CommandLine.Invocation.ofWords ["config", "set", "database.max_connections", "9"] =
          .ok ⟨.config (.set "database.max_connections" "9"), .text, false, none⟩ := by rfl
      cases hSet.symm.trans hWords
      exact ⟨_, rfl⟩
    · have hList : CommandLine.Invocation.ofWords ["config", "list"] =
          .ok ⟨.config .list, .text, false, none⟩ := by rfl
      cases hList.symm.trans hWords
      exact ⟨_, rfl⟩
    · have hReset : CommandLine.Invocation.ofWords ["config", "reset"] =
          .ok ⟨.config .reset, .text, false, none⟩ := by rfl
      cases hReset.symm.trans hWords
      exact ⟨_, rfl⟩
  have hAlike := fun words => alike_atHome words "yes" "maybe"
  exact ⟨overrides_never_saved Libraries.loadsNearby_standard hSettings
    (.cons (hAlike _) (.cons (hAlike _) (.cons (hAlike _) .nil))), by rfl⟩

end Latch
