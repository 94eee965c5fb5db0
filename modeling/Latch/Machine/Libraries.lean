import Latch.Machine.VariableFile
import Latch.Store.FileName

/-!
# Libraries

Two things that the program leaves to libraries which it does not ship. A machine carries what they do,
so that results about the program say what they need of them.

* `Libraries.loadVariables` — looks for a file with variables around the current directory;
* `Libraries.storeAt` — reads the path of a store;
* `Libraries.standard` — the libraries that the program is run with.
-/

namespace Latch

structure Libraries where
  /-- The variables of a program that is started in a directory, after its variable file was read. -/
  loadVariables : Files → Location → Environment → Environment
  storeAt : Path → Store.Target

namespace Libraries

def standard : Libraries := ⟨VariableFile.load, Store.FileName.target⟩

instance : Inhabited Libraries := ⟨standard⟩

end Libraries

end Latch
