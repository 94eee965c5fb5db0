import Latch.Config.File

/-!
# Editing settings

An editor holds one current configuration on a machine. Each step either changes the editor and gives
an answer, or fails; a step that fails leaves the current configuration as it was.

* `Editor.Step` — what can be asked of an editor;
* `Editor.apply` — the answer to a step, and the editor after it.
-/

namespace Latch

structure Editor where
  config : Config
  machine : Machine
deriving Inhabited

namespace Editor

inductive Step where
  /-- Goes back to the standard settings. -/
  | standard
  | load
  | loadFrom (file : Path)
  | get (name : String)
  | set (name text : String)
  | list
  | view
  | validate
  | save
  | saveTo (file : Path)
  | reset
  | configPath
  /-- Takes settings over without looking at them. -/
  | assign (config : Config)
  | changeEnvironment (changes : List (String × Option String))
  | putFile (file : Path) (content : Content)
  | fileText (file : Path)
deriving DecidableEq

inductive Answer where
  | done
  | config (config : Config)
  | text (text : String)
  | entries (entries : List (String × String))
  | content (text? : Option String)
deriving DecidableEq, Repr

/-- Makes loaded settings the current ones. -/
def adopt (editor : Editor) : Except Config.Error Config → Except Config.Error Answer × Editor
  | .ok config => (.ok (.config config), { editor with config })
  | .error e => (.error e, editor)

/-- Takes over the machine after an operation on its files. -/
def afterWriting (editor : Editor) :
    Except Config.Error Unit × Machine → Except Config.Error Answer × Editor
  | (result, machine) => (result.map fun _ => .done, { editor with machine })

def set (editor : Editor) (name text : String) : Except Config.Error Answer × Editor :=
  match editor.config.set name text with
  | .ok config => (.ok .done, { editor with config })
  | .error e => (.error e, editor)

def apply (editor : Editor) : Step → Except Config.Error Answer × Editor
  | .standard => editor.adopt (.ok .standard)
  | .load => editor.adopt (Config.load editor.machine)
  | .loadFrom file => editor.adopt (Config.loadFrom editor.machine file)
  | .get name => ((editor.config.get name).map .text, editor)
  | .set name text => editor.set name text
  | .list => (.ok (.entries editor.config.list), editor)
  | .view => (.ok (.config editor.config), editor)
  | .validate => (editor.config.validate.map fun _ => .done, editor)
  | .save => editor.afterWriting (editor.config.save editor.machine)
  | .saveTo file => editor.afterWriting (editor.config.saveTo file editor.machine)
  | .reset => editor.afterWriting (Config.reset editor.machine)
  | .configPath =>
    ((Config.settingsFile editor.machine).map fun file => .text file.text, editor)
  | .assign config => editor.adopt (.ok config)
  | .changeEnvironment changes =>
    (.ok .done, { editor with machine := editor.machine.change changes })
  | .putFile file content =>
    (.ok .done, { editor with machine := editor.machine.putFile file content })
  | .fileText file => (.ok (.content (editor.machine.readText? file)), editor)

/-- Runs steps one after the other; a failing step does not end the run. -/
def run (editor : Editor) : List Step → List (Except Config.Error Answer) × Editor
  | [] => ([], editor)
  | step :: rest =>
    let (answer, editor) := editor.apply step
    let (answers, editor) := editor.run rest
    (answer :: answers, editor)

end Editor

end Latch
