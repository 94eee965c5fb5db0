import Latch.Machine.Path
import Latch.Text.Blank
import Latch.Text.Decimal
import Latch.Text.Word

/-!
# Settings

* `Config` — the switch for the whole, and where and how the store is opened;
* `Config.Setting` — the settings by which people name and change single fields;
* `Config.get`, `Config.set` — a field as text, and a field from text;
* `Config.Error` — why settings could not be changed, read or written.
-/

namespace Latch

structure StoreSettings where
  /-- The file of the store; without it the default place is used. -/
  path? : Option Path := none
  maxConnections : UInt32 := 5
deriving DecidableEq, Repr, Inhabited

/-- The settings of a program that has none. -/
def StoreSettings.standard : StoreSettings := {}

structure Config where
  /-- Whether features may be locked at all. -/
  perUserEnabled : Bool := false
  store : StoreSettings := {}
deriving DecidableEq, Repr, Inhabited

namespace Config

def standard : Config := {}

/-! ## Names of settings -/

inductive Setting where
  | perUserEnabled
  | storePath
  | maxConnections
deriving DecidableEq, Repr

namespace Setting

def text : Setting → String
  | perUserEnabled => "feature_locking.per_user_enabled"
  | storePath => "database.path"
  | maxConnections => "database.max_connections"

def all : List Setting := [perUserEnabled, storePath, maxConnections]

def ofText? (s : String) : Option Setting := all.find? (·.text == s)

end Setting

/-! ## Errors -/

inductive Error where
  | unknownSetting (name : String)
  /-- The text, trimmed and in small letters, is none of the words for true and false. -/
  | notBoolean (text : String)
  | notCount (text : String) (fault : Decimal.Fault)
  /-- A zero was given where at least one connection is needed. -/
  | zeroCount
  /-- The settings as a whole allow no connection. -/
  | noConnections
  /-- The variable that overrides the switch has a text that is not boolean. -/
  | invalidOverride (text : String)
  /-- There is no directory for the settings file. -/
  | unknownDirectory
  | unreadable (file : Path)
  | malformed (file : Path)
  | noDirectory (directory : Path)
  | unwritable (file : Path)
  | irremovable (file : Path)
deriving DecidableEq, Repr

namespace Error

def message : Error → String
  | unknownSetting name =>
    "Unknown configuration key: " ++ name
      ++ ". Use `featurelock config list` to see available keys."
  | notBoolean text => "Invalid boolean value: " ++ text
  | notCount text _ => "Invalid max_connections value: " ++ text
  | zeroCount => "max_connections must be at least 1"
  | noConnections => "database.max_connections must be at least 1"
  | invalidOverride _ => "Invalid FEATURELOCK_PER_USER_LOCKING value"
  | unknownDirectory => "Could not determine config directory"
  | unreadable file => "Failed to read config file: " ++ file.text
  | malformed file => "Failed to parse config file: " ++ file.text
  | noDirectory directory => "Failed to create config directory: " ++ directory.text
  | unwritable file => "Failed to write config file: " ++ file.text
  | irremovable file => "Failed to remove config file: " ++ file.text

/-- The messages of what lies behind an error. -/
def causes : Error → List String
  | notCount _ fault => [fault.message]
  | invalidOverride text => [(notBoolean text).message]
  | _ => []

end Error

/-! ## Fields as text -/

def countText (n : UInt32) : String := Decimal.natText n.toNat

def pathText : Option Path → String
  | some path => path.text
  | none => "(default)"

def read (config : Config) : Setting → String
  | .perUserEnabled => boolText config.perUserEnabled
  | .storePath => pathText config.store.path?
  | .maxConnections => countText config.store.maxConnections

def get (config : Config) (name : String) : Except Error String :=
  match Setting.ofText? name with
  | some setting => .ok (config.read setting)
  | none => .error (.unknownSetting name)

/-- All settings with their values. -/
def list (config : Config) : List (String × String) :=
  Setting.all.map fun setting => (setting.text, config.read setting)

/-! ## Fields from text -/

def trueWords : List String := ["true", "1", "yes", "on"]

def falseWords : List String := ["false", "0", "no", "off"]

/-- The text by which a boolean is recognised. -/
def word (text : String) : String := String.ofList (Text.toLower (Text.trim text.toList))

def bool? (text : String) : Option Bool :=
  if word text ∈ trueWords then some true
  else if word text ∈ falseWords then some false
  else none

/-- A path without the blanks around it; none if nothing is left. -/
def path? (text : String) : Option Path :=
  match Text.trim text.toList with
  | [] => none
  | trimmed => some ⟨String.ofList trimmed⟩

def count (text : String) : Except Error UInt32 :=
  match Decimal.readNat UInt32.size text.toList with
  | .error fault => .error (.notCount text fault)
  | .ok 0 => .error .zeroCount
  | .ok n => .ok (UInt32.ofNat n)

def write (config : Config) (text : String) : Setting → Except Error Config
  | .perUserEnabled =>
    match bool? text with
    | some perUserEnabled => .ok { config with perUserEnabled }
    | none => .error (.notBoolean (word text))
  | .storePath => .ok { config with store := { config.store with path? := path? text } }
  | .maxConnections => do
    return { config with store := { config.store with maxConnections := ← count text } }

def set (config : Config) (name text : String) : Except Error Config :=
  match Setting.ofText? name with
  | some setting => config.write text setting
  | none => .error (.unknownSetting name)

/-! ## Validity -/

def validate (config : Config) : Except Error Unit :=
  if config.store.maxConnections = 0 then .error .noConnections else .ok ()

end Config

end Latch
