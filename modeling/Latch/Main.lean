import Latch.CommandLine.Run
import Latch.Store.Snapshot
import Std.Time.DateTime.Timestamp

/-!
# The program

The outer layer: it looks at the files and variables that a command line may need, runs the command
line on a machine made of them, and carries out what has changed.
-/

namespace Latch.Main

/-! ## Looking at the surroundings -/

def pathText (location : Location) : String := "/" ++ "/".intercalate location

def isDirectory (path : String) : IO Bool := do
  try
    let _ ← IO.FS.realPath (path ++ "/.")
    return true
  catch _ => return false

/-- What the bytes of a file are: the tables of a store, a text, or neither. -/
def contentOf (data : ByteArray) : Content :=
  match String.fromUTF8? data with
  | none => .bytes data.data.toList
  | some s =>
    match Store.Snapshot.parse? s with
    | some tables => .database tables
    | none => .text s

/-- Adds what is at a location. -/
def look (files : Files) (location : Location) : IO Files := do
  if ← isDirectory (pathText location) then return files.put location .directory
  try return files.put location (.file (contentOf (← IO.FS.readBinFile (pathText location))))
  catch _ => return files

def followPiece (location : Location) (piece : String) : Location :=
  if piece = "" || piece = "." then location
  else if piece = ".." then location.dropLast
  else location ++ [piece]

/-- Adds everything along a path. -/
def explore (machine : Machine) (path : Path) : IO Machine := do
  let mut location := Files.start machine.here path
  let mut files := machine.files
  for piece in path.pieces do
    location := followPiece location piece
    files ← look files location
  return machine.withFiles files

/-- The home directory on record for the account that the program runs as. -/
def accountHome? : IO Place := do
  try
    let status ← IO.FS.lines "/proc/self/status"
    let accounts ← IO.FS.lines "/etc/passwd"
    let user? := status.findSome? fun line => match line.splitOn "\t" with
      | "Uid:" :: user :: _ => some user
      | _ => none
    return accounts.findSome? fun line => match line.splitOn ":" with
      | [_, _, user, _, _, home, _] => if user? = some user then some ⟨home⟩ else none
      | _ => none
  catch _ => return none

/-- The variables that decide where files are, and on the switch. -/
def variableNames : List String :=
  ["HOME", "XDG_CONFIG_HOME", "XDG_DATA_HOME", Environment.configDirectoryVariable,
    Environment.perUserLockingVariable]

/-- The words of a text that could be names of variables. -/
def wordsOf (s : String) : List String :=
  (s.map fun c => if VariableFile.isNamePart c then c else ' ').splitOn " "

def withVariables (machine : Machine) (names : List String) : IO Machine := do
  let mut machine := machine
  for name in names do
    if !name.isEmpty then machine := machine.change [(name, ← IO.getEnv name)]
  return machine

/-- The machine that a command line runs on. -/
def survey (words : List String) : IO Machine := do
  let here := ((⟨(← IO.currentDir).toString⟩ : Path).pieces).foldl followPiece []
  let mut machine := Machine.blank here
  for location in VariableFile.candidates here do
    machine ← explore machine ⟨pathText location⟩
  let content? := VariableFile.find? machine.files here
  let mentioned := wordsOf ((content?.map VariableFile.leadingText).getD "")
  machine ← withVariables machine (variableNames ++ mentioned)
  machine := { machine with environment.accountHome? := ← accountHome? }
  let environment := machine.loadedEnvironment
  machine ← explore machine ⟨environment.configPath.text⟩
  match CommandLine.Invocation.ofWords words, Config.load { machine with environment } with
  | .ok i, .ok config =>
    explore machine (CommandLine.storeConfig config i.database? environment).path
  | _, _ => return machine

/-! ## Carrying out changes -/

def bytesOf : Content → ByteArray
  | .text s => s.toUTF8
  | .bytes data => ⟨data.toArray⟩
  | .database tables => (Store.Snapshot.render tables).toUTF8

def putNode (location : Location) : Node → IO Unit
  | .directory => IO.FS.createDirAll (pathText location)
  | .file content => IO.FS.writeBinFile (pathText location) (bytesOf content)

/-- Makes the files what they have become. The last nodes are the oldest, so that a directory is made
before what it holds. -/
def settle (before after : Files) : IO Unit := do
  for (location, node) in after.nodes.reverse do
    if before.node? location ≠ some node then putNode location node
  for (location, _) in before.nodes do
    if (after.node? location).isNone then IO.FS.removeFile (pathText location)

def now : IO Millis := do
  return Int64.ofInt (← Std.Time.Timestamp.now).toMillisecondsSinceUnixEpoch.val

def report : CommandLine.Outcome → IO Unit
  | .refused => do
    for line in CommandLine.helpLines do IO.eprintln line
  | .ended output failure? => do
    IO.print output
    if let some failure := failure? then
      if let some hint := failure.hint? then IO.eprintln ("Hint: " ++ hint)
      IO.eprintln ("Error: " ++ failure.message)

end Latch.Main

open Latch in
def main (words : List String) : IO UInt32 := do
  let machine ← Main.survey words
  let (outcome, after) := CommandLine.run words (← Main.now) machine
  Main.settle machine.files after.files
  Main.report outcome
  return outcome.exitCode
