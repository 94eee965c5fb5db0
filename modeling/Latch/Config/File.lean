import Latch.Config.Written
import Latch.Machine.Basic

/-!
# The settings file

* `Config.settingsFile` — where the file of the program is, unless there is no directory for it;
* `Config.loadFrom`, `Config.load` — settings from a file; only `load` lets the environment override
  them;
* `Config.saveTo`, `Config.save` — settings into a file; nothing is touched for invalid settings;
* `Config.reset` — removes the file.
-/

namespace Latch.Config

def settingsFile (machine : Machine) : Except Error Path :=
  match machine.configPath with
  | some file => .ok file
  | none => .error .unknownDirectory

/-! ## Reading -/

/-- The settings in a file, or the standard ones if there is no file. -/
def loadFrom (machine : Machine) (file : Path) : Except Error Config :=
  if machine.exists? file then
    match machine.readText? file with
    | none => .error (.unreadable file)
    | some text =>
      match parse? text with
      | none => .error (.malformed file)
      | some config => do
        config.validate
        return config
  else .ok standard

/-- Lets the environment decide on the switch. -/
def override (environment : Environment) (config : Config) : Except Error Config :=
  match environment.get? Environment.perUserLockingVariable with
  | none => .ok config
  | some text =>
    match bool? text with
    | some perUserEnabled => .ok { config with perUserEnabled }
    | none => .error (.invalidOverride (word text))

def load (machine : Machine) : Except Error Config := do
  override machine.environment (← loadFrom machine (← settingsFile machine))

/-! ## Writing -/

/-- Writes valid settings into a file whose directory is there. -/
def writeTo (config : Config) (file : Path) (machine : Machine) : Except Error Unit × Machine :=
  match machine.files.writeText? machine.here file config.render with
  | some files => (.ok (), machine.withFiles files)
  | none => (.error (.unwritable file), machine)

/-- Writes settings into a file after making its directory. -/
def saveTo (config : Config) (file : Path) (machine : Machine) : Except Error Unit × Machine :=
  match config.validate with
  | .error e => (.error e, machine)
  | .ok () =>
    match file.parent? with
    | none => config.writeTo file machine
    | some directory =>
      match machine.files.makeDirectories machine.here directory with
      | (true, files) => config.writeTo file (machine.withFiles files)
      | (false, files) => (.error (.noDirectory directory), machine.withFiles files)

/-- Removes a file, if it is there. -/
def remove (file : Path) (machine : Machine) : Except Error Unit × Machine :=
  if machine.exists? file then
    match machine.files.remove? machine.here file with
    | some files => (.ok (), machine.withFiles files)
    | none => (.error (.irremovable file), machine)
  else (.ok (), machine)

/-- Carries out an operation on the file of the program. -/
def atSettingsFile (operation : Path → Machine → Except Error Unit × Machine) (machine : Machine) :
    Except Error Unit × Machine :=
  match settingsFile machine with
  | .ok file => operation file machine
  | .error e => (.error e, machine)

def save (config : Config) : Machine → Except Error Unit × Machine := atSettingsFile config.saveTo

def reset : Machine → Except Error Unit × Machine := atSettingsFile remove

end Latch.Config
