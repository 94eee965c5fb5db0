import Latch.Machine.Path

/-!
# Environment

The variables that the program reads, and the directories that they lead to. Where no variable leads to
a directory and the account has no home directory either, there is no such directory.

* `Place` — where something is, if there is a place for it;
* `Environment.configDirectory` — where settings are kept;
* `Environment.dataDirectory` — where a store is kept unless the settings say otherwise.
-/

namespace Latch

/-- A path, or none where there is no place for what it would lead to. -/
abbrev Place := Option Path

/-- The text of a place; where there is none, it is empty. -/
def Place.text (place : Place) : String := (place.getD ⟨""⟩).text

structure Environment where
  bindings : List (String × String)
  /-- The home directory on record for the account, if it has one. -/
  accountHome? : Place
deriving DecidableEq, Repr, Inhabited

namespace Environment

def get? (env : Environment) (name : String) : Option String := env.bindings.lookup name

def unset (env : Environment) (name : String) : Environment :=
  { env with bindings := env.bindings.filter (·.1 ≠ name) }

def set (env : Environment) (name value : String) : Environment :=
  { env with bindings := (name, value) :: (env.unset name).bindings }

/-- Applies changes in their order: a value sets a variable, none removes it. -/
def change (env : Environment) (changes : List (String × Option String)) : Environment :=
  changes.foldl (fun env (name, value?) => match value? with
    | some value => env.set name value
    | none => env.unset name) env

/-! ## Names of variables -/

def configDirectoryVariable : String := "FEATURELOCK_CONFIG_DIR"

def perUserLockingVariable : String := "FEATURELOCK_PER_USER_LOCKING"

/-! ## Directories -/

/-- The directory of the program below a base directory. -/
def directoryName : String := "featurelock"

/-- The home directory: the value of its variable, or else the one on record. An empty path is no
home directory. -/
def home (env : Environment) : Place :=
  ((env.get? "HOME").bind fun value => Path.nonempty? ⟨value⟩)
    <|> env.accountHome?.bind Path.nonempty?

/-- A base directory: the value of its variable if that is an absolute path, else a directory below
the home directory. -/
def base (env : Environment) (variableName : String) (belowHome : String) : Place :=
  ((env.get? variableName).bind fun value => Path.absolute? ⟨value⟩)
    <|> env.home.map (·.join belowHome)

def configDirectory (env : Environment) : Place :=
  match env.get? configDirectoryVariable with
  -- also if it is empty: the settings are in the working directory then
  | some value => some ⟨value⟩
  | none => (env.base "XDG_CONFIG_HOME" ".config").map (·.join directoryName)

def configPath (env : Environment) : Place := env.configDirectory.map (·.join "config.toml")

def dataDirectory (env : Environment) : Place := env.base "XDG_DATA_HOME" ".local/share"

/-- Where the store is unless the settings say otherwise; without a data directory that is in the
working directory. -/
def defaultStorePath (env : Environment) : Path :=
  let directory : Place := env.dataDirectory.map (·.join directoryName)
  (directory.getD ⟨""⟩).join "featurelock.db"

end Environment

end Latch
