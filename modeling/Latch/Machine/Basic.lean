import Latch.Machine.Libraries

/-!
# The machine

What the program finds around it: files, environment variables, the directory that relative paths start
from, and the libraries that it is run with.

* `Machine.loadedEnvironment` — the variables that a program sees which reads its variable file first.
-/

namespace Latch

structure Machine where
  files : Files
  environment : Environment
  here : Location
  libraries : Libraries
deriving Inhabited

namespace Machine

def loadedEnvironment (m : Machine) : Environment :=
  m.libraries.loadVariables m.files m.here m.environment

def configPath (m : Machine) : Place := m.environment.configPath

def exists? (m : Machine) (p : Path) : Bool := m.files.exists? m.here p

def readText? (m : Machine) (p : Path) : Option String := m.files.readText? m.here p

def withFiles (m : Machine) (files : Files) : Machine := { m with files }

def change (m : Machine) (changes : List (String × Option String)) : Machine :=
  { m with environment := m.environment.change changes }

/-! ## Putting things in place -/

/-- Makes a directory with its parents, as far as that goes. -/
def putDirectory (m : Machine) (p : Path) : Machine :=
  m.withFiles (m.files.makeDirectories m.here p).2

/-- Puts a file in place, with the directories that it needs. -/
def putFile (m : Machine) (p : Path) (content : Content) : Machine :=
  let m := match p.parent? with
    | some directory => m.putDirectory directory
    | none => m
  m.withFiles ((m.files.write? m.here p content).getD m.files)

/-- A machine without variables and with nothing but the current directory. -/
def blank (here : Location) : Machine :=
  ⟨(Files.makeAlong ⟨[]⟩ [] here).2, ⟨[], none⟩, here, .standard⟩

end Machine

end Latch
