import Latch.Config.Basic
import Latch.Machine.Basic
import Latch.Store.Migration

/-!
# Opening a store

A store is kept in a file, or in memory for as long as it is open. Opening a file makes it and its
directory where they are missing, and brings the tables to the newest version.

* `StoreConfig` — where a store is kept;
* `OpenStore` — a store in use, with the file that its tables go back to;
* `OpenStore.ofConfig` — opens a store on a machine;
* `StorageError` — why a store could not be opened or examined.
-/

namespace Latch

/-! ## Where a store is kept -/

structure StoreConfig where
  path : Path
  maxConnections : UInt32
deriving DecidableEq, Repr, Inhabited

namespace StoreConfig

def withPath (path : Path) : StoreConfig := ⟨path, StoreSettings.standard.maxConnections⟩

def ofSettings (environment : Environment) (settings : StoreSettings) : StoreConfig :=
  ⟨settings.path?.getD environment.defaultStorePath, settings.maxConnections⟩

def standard (environment : Environment) : StoreConfig := ofSettings environment .standard

/-- The path that stands for a store without a file. -/
def memoryPath : Path := ⟨Store.FileName.memoryName⟩

/-- A store in memory, which only one connection can see. -/
def inMemory : StoreConfig := ⟨memoryPath, 1⟩

def isInMemory (config : StoreConfig) : Bool := config.path = memoryPath

end StoreConfig

/-! ## Errors -/

inductive StorageError where
  | noDirectory (directory : Path)
  | noConnection (path : Path)
  | notMigrated (fault : Store.Fault)
  | noStatus (fault : Store.Fault)
  | unhealthy (fault : Store.Fault)
  /-- A fault of the store that nothing is said about. -/
  | bare (fault : Store.Fault)
deriving DecidableEq, Repr

/-- What the store itself says about a fault. -/
def Store.Fault.message : Store.Fault → String
  | .closed => "attempted to acquire a connection on a closed pool"
  | .guarded => "error returned from database: (code: 1811) poisoned"
  | .duplicate => "error returned from database: (code: 2067) UNIQUE constraint failed"
  | .missingTable => "error returned from database: (code: 1) no such table"
  | .outOfRange => "error occurred while decoding column 0: out of range integral type conversion attempted"

def StorageError.message : StorageError → String
  | .noDirectory directory => "Failed to create database directory: " ++ directory.text
  | .noConnection path => "Failed to connect to database: " ++ path.text
  | .notMigrated _ => "Failed to run database migrations"
  | .noStatus _ => "Failed to check migration status"
  | .unhealthy _ => "Database health check failed"
  | .bare fault => fault.message

/-! ## Stores in use -/

structure OpenStore where
  store : Store
  path : Path
  /-- The file that the tables go back to; a store in memory has none. -/
  file? : Option Location
deriving DecidableEq, Inhabited

namespace OpenStore

/-- Runs a script on the store. -/
def run {α : Type} (s : OpenStore) (script : Store.Script α) : α × OpenStore :=
  let (result, store) := s.store.run script
  (result, { s with store })

def migrate (s : OpenStore) : Except StorageError Unit × OpenStore :=
  let (result, s) := s.run Store.Migration.runAll.run
  (result.mapError .notMigrated, s)

def status (s : OpenStore) : Except StorageError Store.Migration.Status × OpenStore :=
  let (result, s) := s.run Store.Migration.status.run
  (result.mapError .noStatus, s)

def needsMigration (s : OpenStore) : Except StorageError Bool × OpenStore :=
  let (result, s) := s.run Store.Migration.isNeeded.run
  (result.mapError .bare, s)

def checkHealth (s : OpenStore) : Except StorageError Unit × OpenStore :=
  let (result, s) := s.run (Store.Statement.attempt .ping).run
  (result.mapError .unhealthy, s)

def close (s : OpenStore) : OpenStore := { s with store := s.store.close }

/-- Leaves the tables in their file. -/
def leave (s : OpenStore) (machine : Machine) : Machine :=
  match s.file? with
  | some location =>
    machine.withFiles (machine.files.put location (.file (.database s.store.tables)))
  | none => machine

/-! ## Opening -/

/-- A store in memory without any table. -/
def bare : OpenStore := ⟨⟨.empty, false⟩, StoreConfig.memoryPath, none⟩

/-- The tables that a file holds; a new or an empty file holds none. -/
def tablesAt? (files : Files) (location : Location) : Option Store.Tables :=
  match files.node? location with
  | none => some .empty
  | some (.file (.database tables)) => some tables
  | some (.file (.text "")) => some .empty
  | some _ => none

/-- Makes the directory of a store's file. -/
def makeDirectory (machine : Machine) (path : Path) : Except StorageError Unit × Machine :=
  match path.parent? with
  | none => (.ok (), machine)
  | some directory =>
    match machine.files.makeDirectories machine.here directory with
    | (true, files) => (.ok (), machine.withFiles files)
    | (false, files) => (.error (.noDirectory directory), machine.withFiles files)

/-- Finds the tables in a file. -/
def ofFile? (machine : Machine) (path file : Path) : Option OpenStore := do
  let location ← machine.files.resolve? machine.here file
  return ⟨⟨← tablesAt? machine.files location, false⟩, path, some location⟩

/-- Finds the tables of a store. A store in memory has none, and nobody else can see it. -/
def connect? (machine : Machine) (path : Path) : Option OpenStore :=
  match machine.libraries.storeAt path with
  | .refused => none
  | .memory => some { bare with path }
  | .file file mustExist =>
    if mustExist && !machine.exists? file then none else ofFile? machine path file

/-- Brings a store that was found to the newest version. What was done before a failure stays. -/
def upgrade (machine : Machine) (s : OpenStore) : Except StorageError OpenStore × Machine :=
  let (result, s) := s.migrate
  (result.map fun _ => s, s.leave machine)

def ofConfig (machine : Machine) (config : StoreConfig) : Except StorageError OpenStore × Machine :=
  if config.isInMemory then upgrade machine bare
  else match makeDirectory machine config.path with
    | (.error e, machine) => (.error e, machine)
    | (.ok (), machine) =>
      match connect? machine config.path with
      | none => (.error (.noConnection config.path), machine)
      | some s => upgrade machine s

end OpenStore

end Latch
