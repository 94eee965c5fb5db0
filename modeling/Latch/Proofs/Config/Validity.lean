import Latch.Config.Editor
import Latch.Proofs.Machine.Files
import Latch.Proofs.Text.Decimal

/-!
# Settings stay valid

Settings come from a file, from a text that is set, and from the environment, and none of these ways
leads to settings that allow no connection. So whatever an editor is asked, its settings can be saved as
far as they are concerned. What fails changes no settings and no file.

* `Editor.after` — an editor after some steps;
* `Editor.Step.isAssignment` — the step takes settings over without looking at them;
* `Editor.Step.leavesMachine` — the step touches neither files nor variables;
* `Machine.SameContents` — all files and directories are still there, with the same contents.

Main results:

* `Config.validate_eq_ok_iff` — settings are valid if they allow a connection;
* `Editor.apply_valid`, `Editor.after_valid` — a step keeps settings valid, and so does a run;
* `Editor.apply_of_error` — a step that fails changes no settings and no file;
* `Config.reset_eq_ok` — after a reset the file is not there;
* `settings_stay_valid` — the same for every point of a run.
-/

namespace Latch

namespace Config

variable {config config' : Config} {machine machine' : Machine} {file : Path} {text : String}

/-! ## Ways to settings -/

theorem validate_eq_ok_iff : config.validate = .ok () ↔ config.store.maxConnections ≠ 0 := by
  unfold validate
  split
  · rename_i hZero
    simp [hZero]
  · rename_i hSome
    simp [hSome]

/-- What is read from a file is looked at before it is taken over. -/
theorem validate_loadFrom (h : loadFrom machine file = .ok config) : config.validate = .ok () := by
  unfold loadFrom at h
  split at h
  · split at h
    · cases h
    · split at h
      · cases h
      · rename_i loaded _
        cases hValid : loaded.validate with
        | error e =>
          rw [hValid] at h
          cases h
        | ok =>
          rw [hValid] at h
          cases h
          exact hValid
  · cases h
    rfl

/-- The environment decides on the switch only. -/
theorem store_override {environment : Environment} (h : override environment config = .ok config') :
    config'.store = config.store := by
  unfold override at h
  split at h
  · cases h
    rfl
  · split at h
    · cases h
      rfl
    · cases h

/-- Settings are loaded from the settings file, and then the environment decides. -/
theorem load_eq_ok (h : load machine = .ok config) :
    ∃ file loaded, settingsFile machine = .ok file ∧ loadFrom machine file = .ok loaded ∧
      override machine.environment loaded = .ok config := by
  unfold load at h
  cases hFile : settingsFile machine with
  | error e =>
    rw [hFile] at h
    cases h
  | ok file =>
    rw [hFile] at h
    change (loadFrom machine file >>= override machine.environment) = .ok config at h
    cases hLoad : loadFrom machine file with
    | error e =>
      rw [hLoad] at h
      cases h
    | ok loaded =>
      rw [hLoad] at h
      exact ⟨file, loaded, rfl, hLoad, h⟩

theorem validate_load (h : load machine = .ok config) : config.validate = .ok () := by
  obtain ⟨file, loaded, -, hLoad, hOverride⟩ := load_eq_ok h
  have hValid := validate_loadFrom hLoad
  rw [validate_eq_ok_iff] at hValid ⊢
  rwa [store_override hOverride]

/-- A count that is read is a number of connections, and not zero. -/
theorem count_ne_zero {n : UInt32} (h : count text = .ok n) : n ≠ 0 := by
  unfold count at h
  split at h
  · cases h
  · cases h
  · rename_i n hSome hRead
    cases h
    have hLt : n < UInt32.size := Decimal.readNat_lt hRead
    -- the number fits into a word, so it is zero only if the word is
    intro hZero
    have hSame := congrArg UInt32.toNat hZero
    rw [UInt32.toNat_ofNat_of_lt' hLt] at hSame
    exact hSome hSame

theorem validate_set {name : String} (h : config.set name text = .ok config')
    (hValid : config.validate = .ok ()) : config'.validate = .ok () := by
  rw [validate_eq_ok_iff] at hValid ⊢
  unfold set at h
  split at h
  · rename_i setting _
    cases setting with
    | perUserEnabled =>
      unfold write at h
      dsimp only at h
      split at h
      · cases h
        exact hValid
      · cases h
    | storePath =>
      cases h
      exact hValid
    | maxConnections =>
      unfold write at h
      cases hCount : count text with
      | error e =>
        simp only [hCount] at h
        cases h
      | ok n =>
        simp only [hCount] at h
        cases h
        exact count_ne_zero hCount
  · cases h

/-! ## Ways out of settings -/

/-- Invalid settings are refused before anything is touched. -/
theorem saveTo_of_invalid (h : config.store.maxConnections = 0) (file : Path) (machine : Machine) :
    config.saveTo file machine = (.error .noConnections, machine) := by
  have hInvalid : config.validate = .error .noConnections := if_pos h
  rw [saveTo, hInvalid]

theorem writeTo_ne_noConnections (config : Config) (file : Path) (machine : Machine) :
    (config.writeTo file machine).1 ≠ .error .noConnections := by
  unfold writeTo
  split <;> simp

/-- Valid settings are not refused for what they are. -/
theorem saveTo_of_valid (h : config.validate = .ok ()) (file : Path) (machine : Machine) :
    (config.saveTo file machine).1 ≠ .error .noConnections := by
  rw [saveTo, h]
  dsimp only
  split
  · exact writeTo_ne_noConnections config file machine
  · split
    · exact writeTo_ne_noConnections config file _
    · simp

end Config

/-! ## What a failure leaves -/

/-- The same variables, and all files and directories with the same contents. Directories may have
been added. -/
structure Machine.SameContents (machine machine' : Machine) : Prop where
  here : machine'.here = machine.here
  environment : machine'.environment = machine.environment
  libraries : machine'.libraries = machine.libraries
  directories : Files.Keeps machine.files machine'.files
  files : ∀ location, Files.SameFile location machine.files machine'.files

theorem Machine.SameContents.refl (machine : Machine) : SameContents machine machine :=
  ⟨rfl, rfl, rfl, Files.Keeps.refl _, fun _ => Files.SameFile.refl _ _⟩

namespace Config

variable {config : Config} {machine machine' : Machine} {file : Path} {e : Error}

theorem writeTo_of_error (h : (config.writeTo file machine).1 = .error e) :
    (config.writeTo file machine).2 = machine := by
  unfold writeTo at h ⊢
  split at h
  · cases h
  · rfl

/-- Settings that could not be saved leave new directories behind and nothing else. -/
theorem sameContents_saveTo (h : (config.saveTo file machine).1 = .error e) :
    machine.SameContents (config.saveTo file machine).2 := by
  unfold saveTo at h ⊢
  split
  · exact .refl machine
  · rename_i hValid
    rw [hValid] at h
    dsimp only at h ⊢
    split
    · rename_i hParent
      rw [hParent] at h
      rw [writeTo_of_error h]
      exact .refl machine
    · rename_i directory hParent
      rw [hParent] at h
      -- the directory is made first, and then the file is written
      obtain ⟨hKeeps, hSame⟩ := Files.makeDirectories_keeps machine.files machine.here directory
      dsimp only at h
      split
      · rename_i files hMade
        rw [hMade] at h hKeeps hSame
        rw [writeTo_of_error h]
        exact ⟨rfl, rfl, rfl, hKeeps, hSame⟩
      · rename_i files hMade
        rw [hMade] at hKeeps hSame
        exact ⟨rfl, rfl, rfl, hKeeps, hSame⟩

theorem sameContents_remove (h : (remove file machine).1 = .error e) :
    machine.SameContents (remove file machine).2 := by
  unfold remove at h ⊢
  split at h
  · rename_i hThere
    rw [if_pos hThere]
    split at h
    · cases h
    · exact .refl machine
  · cases h

/-- Where there is no place for the settings file, nothing is touched at all. -/
theorem sameContents_atSettingsFile {operation : Path → Machine → Except Error Unit × Machine}
    (hOperation : ∀ file, (operation file machine).1 = .error e →
      machine.SameContents (operation file machine).2)
    (h : (atSettingsFile operation machine).1 = .error e) :
    machine.SameContents (atSettingsFile operation machine).2 := by
  unfold atSettingsFile at h ⊢
  split
  · rename_i file hFile
    rw [hFile] at h
    exact hOperation file h
  · exact .refl machine

theorem remove_eq_ok (h : (remove file machine).1 = .ok ()) :
    (remove file machine).2.environment = machine.environment ∧
      (remove file machine).2.exists? file = false := by
  unfold remove at h ⊢
  split at h
  · rename_i hThere
    rw [if_pos hThere]
    split at h
    · rename_i files hRemove
      exact ⟨rfl, Files.exists?_remove hRemove⟩
    · cases h
  · rename_i hNone
    rw [if_neg hNone]
    exact ⟨rfl, by simpa using hNone⟩

/-- After a reset there still is a place for the settings file, and the file is not there. -/
theorem reset_eq_ok (h : (reset machine).1 = .ok ()) :
    ∃ file, settingsFile (reset machine).2 = .ok file ∧ (reset machine).2.exists? file = false := by
  unfold reset atSettingsFile at h ⊢
  cases hFile : settingsFile machine with
  | error e =>
    rw [hFile] at h
    cases h
  | ok file =>
    rw [hFile] at h
    obtain ⟨hEnvironment, hMissing⟩ := remove_eq_ok h
    -- removing a file does not change where it is looked for
    have hSame : settingsFile (remove file machine).2 = settingsFile machine := by
      unfold settingsFile Machine.configPath
      rw [hEnvironment]
    exact ⟨file, hSame.trans hFile, hMissing⟩

theorem loadFrom_of_missing (h : machine.exists? file = false) :
    loadFrom machine file = .ok standard := by
  rw [loadFrom, h]
  rfl

end Config

/-! ## Steps -/

namespace Editor

variable {editor : Editor} {step : Step} {steps : List Step}

/-- The step takes settings over without looking at them. -/
def Step.isAssignment : Step → Bool
  | .assign _ => true
  | _ => false

/-- The step touches neither files nor variables. -/
def Step.leavesMachine : Step → Bool
  | .save | .saveTo _ | .reset | .changeEnvironment _ | .putFile .. => false
  | _ => true

theorem adopt_valid {loaded : Except Config.Error Config} (hValid : editor.config.validate = .ok ())
    (hLoaded : ∀ config, loaded = .ok config → config.validate = .ok ()) :
    (editor.adopt loaded).2.config.validate = .ok () := by
  cases loaded with
  | error e => exact hValid
  | ok config => exact hLoaded config rfl

/-- **A step keeps settings valid**, unless it takes settings over as they are. -/
theorem apply_valid (hValid : editor.config.validate = .ok ()) (hStep : step.isAssignment = false) :
    (editor.apply step).2.config.validate = .ok () := by
  cases step with
  | standard =>
    refine adopt_valid hValid fun config hConfig => ?_
    cases hConfig
    rfl
  | load => exact adopt_valid hValid fun _ => Config.validate_load
  | loadFrom file => exact adopt_valid hValid fun _ => Config.validate_loadFrom
  | set name text =>
    unfold apply set
    dsimp only
    split
    · rename_i config hSet
      exact Config.validate_set hSet hValid
    · exact hValid
  | assign config => cases hStep
  | _ => exact hValid

/-- **A step that fails changes no settings and no file**; it may have made directories. -/
theorem apply_of_error {e : Config.Error} (h : (editor.apply step).1 = .error e) :
    (editor.apply step).2.config = editor.config ∧
      editor.machine.SameContents (editor.apply step).2.machine := by
  have hUntouched : (editor.apply step).2 = editor →
      (editor.apply step).2.config = editor.config ∧
        editor.machine.SameContents (editor.apply step).2.machine := by
    intro hSame
    rw [hSame]
    exact ⟨rfl, .refl editor.machine⟩
  have hAdopt : ∀ loaded : Except Config.Error Config, (editor.adopt loaded).1 = .error e →
      (editor.adopt loaded).2 = editor := by
    intro loaded hFailed
    cases loaded with
    | error => rfl
    | ok config => cases hFailed
  have hWrite : ∀ done : Except Config.Error Unit × Machine,
      (editor.afterWriting done).1 = .error e → done.1 = .error e := by
    rintro ⟨result, machine⟩ hFailed
    cases result with
    | ok => cases hFailed
    | error =>
      cases hFailed
      rfl
  cases step with
  | standard | load | loadFrom | assign => exact hUntouched (hAdopt _ h)
  | set name text =>
    refine hUntouched ?_
    unfold apply set at h ⊢
    dsimp only at h ⊢
    split at h
    · cases h
    · rfl
  | save =>
    exact ⟨rfl, Config.sameContents_atSettingsFile (fun _ => Config.sameContents_saveTo) (hWrite _ h)⟩
  | saveTo file => exact ⟨rfl, Config.sameContents_saveTo (hWrite _ h)⟩
  | reset =>
    exact ⟨rfl, Config.sameContents_atSettingsFile (fun _ => Config.sameContents_remove) (hWrite _ h)⟩
  | changeEnvironment | putFile => cases h
  | _ => exact ⟨rfl, .refl editor.machine⟩

theorem machine_apply (h : step.leavesMachine = true) :
    (editor.apply step).2.machine = editor.machine := by
  have hAdopt : ∀ loaded : Except Config.Error Config,
      (editor.adopt loaded).2.machine = editor.machine := by
    intro loaded
    cases loaded <;> rfl
  cases step with
  | standard | load | loadFrom | assign => exact hAdopt _
  | set name text =>
    unfold apply set
    dsimp only
    split <;> rfl
  | save | saveTo | reset | changeEnvironment | putFile => cases h
  | _ => rfl

/-! ## Runs -/

/-- An editor after some steps. -/
def after (editor : Editor) (steps : List Step) : Editor := (editor.run steps).2

theorem after_cons (editor : Editor) (step : Step) (steps : List Step) :
    editor.after (step :: steps) = (editor.apply step).2.after steps := rfl

theorem after_append (editor : Editor) (before steps : List Step) :
    editor.after (before ++ steps) = (editor.after before).after steps := by
  induction before generalizing editor with
  | nil => rfl
  | cons step before ih => exact ih (editor.apply step).2

/-- **A run keeps settings valid.** -/
theorem after_valid (hValid : editor.config.validate = .ok ())
    (hSteps : ∀ step ∈ steps, step.isAssignment = false) :
    (editor.after steps).config.validate = .ok () := by
  induction steps generalizing editor with
  | nil => exact hValid
  | cons step steps ih =>
    obtain ⟨hStep, hRest⟩ := List.forall_mem_cons.mp hSteps
    exact ih (apply_valid hValid hStep) hRest

theorem machine_after (h : ∀ step ∈ steps, step.leavesMachine = true) :
    (editor.after steps).machine = editor.machine := by
  induction steps generalizing editor with
  | nil => rfl
  | cons step steps ih =>
    obtain ⟨hStep, hRest⟩ := List.forall_mem_cons.mp h
    rw [after_cons, ih hRest, machine_apply hStep]

/-- After a reset the settings file is not there, and stays so while nothing is written. -/
theorem apply_loadFrom_after_reset (hReset : (editor.apply .reset).1 = .ok .done)
    (hIdle : ∀ step ∈ steps, step.leavesMachine = true) :
    ∃ file, Config.settingsFile ((editor.apply .reset).2.after steps).machine = .ok file ∧
      ((editor.apply .reset).2.after steps).apply (.loadFrom file) =
        (.ok (.config .standard), { (editor.apply .reset).2.after steps with config := .standard }) := by
  have hDone : (Config.reset editor.machine).1 = .ok () := by
    cases hResult : (Config.reset editor.machine).1 with
    | ok => rfl
    | error e =>
      have hFailed : (editor.apply .reset).1 = (Config.reset editor.machine).1.map fun _ => .done := rfl
      rw [hFailed, hResult] at hReset
      cases hReset
  have hMachine : ((editor.apply .reset).2.after steps).machine = (Config.reset editor.machine).2 :=
    machine_after hIdle
  obtain ⟨file, hFile, hMissing⟩ := Config.reset_eq_ok hDone
  refine ⟨file, by rw [hMachine, hFile], ?_⟩
  show ((editor.apply .reset).2.after steps).adopt (Config.loadFrom _ _) = _
  rw [hMachine, Config.loadFrom_of_missing hMissing]
  rfl

end Editor

/-- **Settings stay valid, and what fails changes nothing.** An editor with valid settings, such as the
standard ones, takes any steps, except that no settings are taken over unseen; files and variables
may be anything, and may change on the way.

* After each step the settings allow between one connection and as many as a word holds, so they are
  not refused when they are saved.
* A step that fails leaves the settings as they were, and all files. So it does where there is no place
  for the settings file.
* After a reset that succeeds, and until something is written, there is a place for the settings file,
  and loading from there gives the standard settings.
* Settings that allow no connection, taken over unseen, are refused when they are saved; nothing has
  been touched then, and no directory made. -/
theorem settings_stay_valid {editor : Editor} {steps : List Editor.Step}
    (hStart : editor.config.validate = .ok ())
    (hSteps : ∀ step ∈ steps, step.isAssignment = false) :
    (∀ before later, steps = before ++ later →
      1 ≤ (editor.after before).config.store.maxConnections.toNat ∧
      (editor.after before).config.store.maxConnections.toNat < UInt32.size ∧
      ∀ file machine, ((editor.after before).config.saveTo file machine).1 ≠ .error .noConnections) ∧
    (∀ before step later error, steps = before ++ step :: later →
      ((editor.after before).apply step).1 = .error error →
      ((editor.after before).apply step).2.config = (editor.after before).config ∧
      (editor.after before).machine.SameContents ((editor.after before).apply step).2.machine) ∧
    (∀ before idle later, steps = before ++ .reset :: idle ++ later →
      ((editor.after before).apply .reset).1 = .ok .done →
      (∀ step ∈ idle, step.leavesMachine = true) →
      ∃ file, Config.settingsFile (editor.after (before ++ .reset :: idle)).machine = .ok file ∧
        ((editor.after (before ++ .reset :: idle)).apply (.loadFrom file)).1 =
          .ok (.config .standard)) ∧
    ∀ (config : Config) (file : Path), config.store.maxConnections = 0 →
      ((editor.after steps).apply (.assign config)).2.apply (.saveTo file) =
        (.error .noConnections, { editor.after steps with config }) := by
  refine ⟨?_, fun _ _ _ _ _ hFailed => Editor.apply_of_error hFailed, ?_, ?_⟩
  · rintro before later rfl
    have hValid : (editor.after before).config.validate = .ok () :=
      Editor.after_valid hStart fun step hStep => hSteps step (List.mem_append_left _ hStep)
    have hSome := Config.validate_eq_ok_iff.mp hValid
    refine ⟨?_, ?_, Config.saveTo_of_valid hValid⟩
    · exact Nat.pos_of_ne_zero fun hZero => hSome (UInt32.toNat_inj.mp hZero)
    · exact UInt32.toNat_lt_size _
  · rintro before idle later rfl hReset hIdle
    rw [Editor.after_append, Editor.after_cons]
    obtain ⟨file, hFile, hLoad⟩ := Editor.apply_loadFrom_after_reset hReset hIdle
    exact ⟨file, hFile, congrArg Prod.fst hLoad⟩
  · intro config file hZero
    show Editor.afterWriting { editor.after steps with config }
      (config.saveTo file (editor.after steps).machine) = _
    rw [Config.saveTo_of_invalid hZero]
    rfl

/-! A zero is refused, and the largest count is set, saved, and dropped again by the reset. -/

def Editor.fresh : Editor := ⟨.standard, (Machine.blank []).change [("HOME", some "/root")]⟩

def countSteps : List Editor.Step :=
  [.set "database.max_connections" "0", .set "database.max_connections" "+4294967295", .save]

theorem settings_stay_valid_reset :
    (Editor.fresh.after countSteps).config.store.maxConnections = 4294967295 ∧
      (Editor.fresh.after countSteps).machine.exists? ⟨"/root/.config/featurelock/config.toml"⟩ = true ∧
      ((Editor.fresh.after (countSteps ++ [.reset, .list])).apply
        (.loadFrom ⟨"/root/.config/featurelock/config.toml"⟩)).1 = .ok (.config .standard) := by
  have hStart : Editor.fresh.config.validate = .ok () := rfl
  have hSteps : ∀ step ∈ countSteps ++ [.reset, .list], step.isAssignment = false := by
    decide
  obtain ⟨-, -, hReset, -⟩ := settings_stay_valid hStart hSteps
  have hIdle : ∀ step ∈ [Editor.Step.list], step.leavesMachine = true := by decide
  obtain ⟨file, hFile, hLoad⟩ := hReset countSteps [.list] [] rfl rfl hIdle
  -- the file of the program is the one below the home directory
  have hPlace : Config.settingsFile (Editor.fresh.after (countSteps ++ [.reset, .list])).machine =
      .ok ⟨"/root/.config/featurelock/config.toml"⟩ := rfl
  cases hFile.symm.trans hPlace
  exact ⟨rfl, rfl, hLoad⟩

end Latch
