import Latch.Config.File
import Latch.Proofs.Config.Written
import Latch.Proofs.Machine.Files

/-!
# Saved settings load back

Saving makes the directory of the file and writes the settings over what the file held. Loading
finds the file there, and reads what was written. Settings that were loaded are saved as the same
text, since all that was made for the file is there already.

* `Config.Prepared` — the files after the directory of a file was made, if its path has one.

Main results:

* `Config.saveTo_eq_ok`, `Config.saveTo_of_written` — when settings are saved;
* `save_then_load` — saved settings load back, and saving them again changes nothing.
-/

namespace Latch

namespace Config

variable {config : Config} {machine machine' : Machine} {file : Path} {files : Files}

/-- The files after the directory of a file was made. -/
def Prepared (machine : Machine) (file : Path) (files : Files) : Prop :=
  match file.parent? with
  | none => files = machine.files
  | some directory => machine.files.makeDirectories machine.here directory = (true, files)

/-- Settings are saved if they are valid, their directory can be made, and the file can be
written. -/
theorem saveTo_eq_ok (hSave : config.saveTo file machine = (.ok (), machine')) :
    config.validate = .ok () ∧ ∃ files files', Prepared machine file files ∧
      files.writeText? machine.here file config.render = some files' ∧
      machine' = machine.withFiles files' := by
  -- the file is written alike whether a directory was made for it or not
  have hWritten : ∀ files, config.writeTo file (machine.withFiles files) = (.ok (), machine') →
      ∃ files', files.writeText? machine.here file config.render = some files' ∧
        machine' = machine.withFiles files' := by
    intro files hWrite
    unfold writeTo at hWrite
    split at hWrite
    case h_1 files' hText =>
      cases hWrite
      exact ⟨files', hText, rfl⟩
    case h_2 => cases hWrite
  unfold saveTo at hSave
  split at hSave
  case h_1 => cases hSave
  case h_2 hValid =>
    refine ⟨hValid, ?_⟩
    unfold Prepared
    cases hParent : file.parent? with
    | none =>
      rw [hParent] at hSave
      obtain ⟨files', hText, hMachine⟩ := hWritten machine.files hSave
      exact ⟨machine.files, files', rfl, hText, hMachine⟩
    | some directory =>
      rw [hParent] at hSave
      dsimp only at hSave
      split at hSave
      case h_1 files hMade =>
        obtain ⟨files', hText, hMachine⟩ := hWritten files hSave
        exact ⟨files, files', hMade, hText, hMachine⟩
      case h_2 => cases hSave

theorem saveTo_of_written {files' : Files} (hValid : config.validate = .ok ())
    (hPrepared : Prepared machine file files)
    (hText : files.writeText? machine.here file config.render = some files') :
    config.saveTo file machine = (.ok (), machine.withFiles files') := by
  have hWrite :
      config.writeTo file (machine.withFiles files) = (.ok (), machine.withFiles files') := by
    have hHere : (machine.withFiles files).files.writeText? (machine.withFiles files).here file
        config.render = some files' := hText
    rw [writeTo, hHere]
    rfl
  unfold Prepared at hPrepared
  rw [saveTo, hValid]
  cases hParent : file.parent? with
  | none =>
    rw [hParent] at hPrepared
    rw [hPrepared] at hWrite
    exact hWrite
  | some directory =>
    rw [hParent] at hPrepared
    dsimp only
    rw [hPrepared]
    exact hWrite

/-- After a file is written its directory is still there, so there is nothing left to make. -/
theorem prepared_again {files' : Files} {content : Content} (hPrepared : Prepared machine file files)
    (hWrite : files.write? machine.here file content = some files') :
    Prepared (machine.withFiles files') file files' := by
  unfold Prepared at *
  cases hParent : file.parent? with
  | none => rfl
  | some directory =>
    -- the file takes the place of no directory
    rw [hParent] at hPrepared
    obtain ⟨location, -, hFile, rfl⟩ := Files.write?_eq_some hWrite
    exact Files.makeDirectories_again hPrepared (Files.keeps_put_file hFile)

end Config

/-- **Saved settings load back.** Whatever the path of the store contains, settings that were saved
to a file are loaded from it, and saving what was loaded writes the same text. -/
theorem save_then_load (config : Config) (file : Path) (machine machine' : Machine)
    (hSave : config.saveTo file machine = (.ok (), machine')) :
    Config.loadFrom machine' file = .ok config ∧
      machine'.readText? file = some config.render ∧
      config.saveTo file machine' = (.ok (), machine') := by
  obtain ⟨hValid, files, files', hPrepared, hText, rfl⟩ := Config.saveTo_eq_ok hSave
  have hRead : (machine.withFiles files').readText? file = some config.render :=
    Files.readText?_writeText hText
  refine ⟨?_, hRead, ?_⟩
  · -- the settings were valid when they were saved, and what is read are the same settings
    have hExists : (machine.withFiles files').exists? file = true := Files.exists?_write hText
    rw [Config.loadFrom, if_pos hExists, hRead]
    simp only [Config.parse?_render, hValid]
    rfl
  · have hAgain := Config.prepared_again hPrepared hText
    exact Config.saveTo_of_written hValid hAgain (Files.write?_again hText)

/-- Settings whose path has rows of both marks, a backslash, line ends and control characters. -/
def Config.knotty : Config :=
  ⟨true, some ⟨"\n'''\"\"\"\" \\ é\r\n\x00\x7f\""⟩, 4294967295⟩

/-! The settings of an empty machine are saved below two new directories. -/

theorem save_then_load_knotty :
    Config.knotty.saveTo ⟨"/etc/latch/config.toml"⟩ (Machine.blank []) =
        (.ok (), (Config.knotty.saveTo ⟨"/etc/latch/config.toml"⟩ (Machine.blank [])).2) ∧
      Config.loadFrom (Config.knotty.saveTo ⟨"/etc/latch/config.toml"⟩ (Machine.blank [])).2
        ⟨"/etc/latch/config.toml"⟩ = .ok Config.knotty := by
  have hSave : (Config.knotty.saveTo ⟨"/etc/latch/config.toml"⟩ (Machine.blank [])).1 = .ok () := by
    rfl
  exact ⟨Prod.ext hSave rfl, (save_then_load _ _ _ _ (Prod.ext hSave rfl)).1⟩

end Latch
