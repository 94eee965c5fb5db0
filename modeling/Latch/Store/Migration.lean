import Latch.Store.Basic

/-!
# Migrations

The tables come into being in two numbered steps. A step makes its table and the table's index, and
only then records its number, so a recorded number implies that the table was made. The current
version is the highest recorded number.

* `Migration.currentVersion` — reads it, and makes the table of versions first;
* `Migration.runAll` — runs the steps above the current version;
* `Migration.status` — compares the current version with the newest one.
-/

namespace Latch.Store

/-- A script that stops at the first statement that fails. -/
abbrev Attempt (α : Type) : Type := ExceptT Fault (Program Statement.Reply) α

/-- Runs one statement. -/
def Statement.attempt (s : Statement) : Attempt s.Result := ExceptT.mk (Program.single s)

namespace Migration

/-- The newest version. -/
def target : Int32 := 2

def currentVersion : Attempt Int32 := do
  let _ ← (Statement.createTable .migrations).attempt
  let version ← Statement.selectVersion.attempt
  return Option.getD version 0

/-- Makes a table and records the version that has it. -/
def step (table : TableName) (version : Int64) : Attempt Unit := do
  let _ ← (Statement.createTable table).attempt
  let _ ← (Statement.createIndex table).attempt
  let _ ← (Statement.insertVersion version).attempt
  return ()

def runAll : Attempt Unit := do
  let current ← currentVersion
  if current < target then
    if current < 1 then step .locks 1
    step .properties 2

def isNeeded : Attempt Bool := do
  return (← currentVersion) < target

structure Status where
  current : Int32
  target : Int32
  isNeeded : Bool
deriving DecidableEq, Repr

def status : Attempt Status := do
  let current ← currentVersion
  return ⟨current, target, current < target⟩

end Migration

/-- Replaces the recorded versions, one statement after the other. -/
def recordVersions (versions : List Int64) : Attempt Unit := do
  let _ ← Migration.currentVersion
  let _ ← Statement.deleteVersions.attempt
  versions.forM fun version => do
    let _ ← (Statement.insertVersion version).attempt

end Latch.Store
