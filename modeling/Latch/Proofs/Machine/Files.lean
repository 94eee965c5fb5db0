import Latch.Machine.Files

/-!
# What is written into a file is there

Where a path leads depends on the directories only. A file is never written over a directory, so
writing one changes none of them, and the same path leads to it afterwards.

* `Files.Keeps` — every directory of one tree is also a directory of another;
* `Files.SameFile` — a location holds the same file in two trees;
* `Files.IsPlain` — a name that is followed as it stands.

Main results:

* `Files.walk_put_file` — after a file is written every path leads where it led before;
* `Files.readText?_writeText` — what was written into a file is read from it;
* `Files.write?_again` — writing the same into it again changes nothing;
* `Files.makeDirectories_again` — nor does making directories that are all there;
* `Files.makeDirectories_keeps` — making directories touches no file;
* `Files.exists?_remove` — what was removed is not there any more;
* `Files.walk_concat` — what a path leads to is called by its last name;
* `Files.resolve?_join` — so what is joined to a path is called by the name that was joined.
-/

namespace Latch.Path

theorem split_ne_nil (cs : List Char) : split cs ≠ [] := by
  cases cs with
  | nil => simp [split]
  | cons c rest =>
    rw [split]
    split
    · simp
    · split <;> simp

theorem split_append (before after : List Char) :
    split (before ++ '/' :: after) = split before ++ split after := by
  induction before with
  | nil => simp [split]
  | cons c rest ih =>
    rw [List.cons_append, split, split, ih]
    by_cases hSlash : c = '/'
    · simp [hSlash]
    · rw [if_neg hSlash, if_neg hSlash]
      -- a text has a piece at least, to which the character is added
      cases hSplit : split rest with
      | nil => exact absurd hSplit (split_ne_nil rest)
      | cons piece pieces => rfl

theorem split_of_not_mem {cs : List Char} (h : '/' ∉ cs) : split cs = [cs] := by
  induction cs with
  | nil => rfl
  | cons c rest ih =>
    rw [List.mem_cons, not_or] at h
    rw [split, if_neg (Ne.symm h.1), ih h.2]

/-- A name that is joined to a path is its last piece. -/
theorem exists_pieces_join (p : Path) {name : String} (hName : '/' ∉ name.toList) :
    ∃ front, (p.join name).pieces = front ++ [name] := by
  have hRelative : ¬ isAbsolute ⟨name⟩ = true := by
    intro hAbsolute
    exact hName (List.mem_of_mem_head? (by simpa [isAbsolute] using hAbsolute))
  have hLast : (split name.toList).map String.ofList = [name] := by
    rw [split_of_not_mem hName, List.map_singleton, String.ofList_toList]
  have hBehind : ∀ before : List Char,
      (split (before ++ '/' :: name.toList)).map String.ofList =
        (split before).map String.ofList ++ [name] := by
    intro before
    rw [split_append, List.map_append, hLast]
  rw [join, if_neg hRelative]
  split
  · rename_i hEnd
    rcases Bool.or_eq_true_iff.mp hEnd with hEmpty | hSlash
    · have hText : p.text = "" := by simpa using hEmpty
      exact ⟨[], by rw [hText, pieces, String.empty_append, hLast]; rfl⟩
    · -- the slash is there already
      obtain ⟨before, hBefore⟩ := List.getLast?_eq_some_iff.mp (of_decide_eq_true hSlash)
      refine ⟨(split before).map String.ofList, ?_⟩
      rw [pieces, String.toList_append, hBefore, List.append_assoc]
      exact hBehind before
  · refine ⟨(split p.text.toList).map String.ofList, ?_⟩
    rw [pieces, String.toList_append, String.toList_append, List.append_assoc]
    exact hBehind p.text.toList

end Latch.Path

namespace Latch.Files

variable {files files' after : Files} {location other here : Location} {node : Node}
  {content : Content} {p : Path}

/-! ## Nodes -/

theorem node?_put_self (hRoot : location ≠ []) :
    (files.put location node).node? location = some node := by
  rw [node?, if_neg hRoot, put, List.lookup_cons_self]

/-- Entries of one key that are dropped are not those of another. -/
theorem lookup_filter_of_ne {κ α : Type} [BEq κ] [LawfulBEq κ] [DecidableEq κ] {key other : κ}
    (hOther : other ≠ key) (entries : List (κ × α)) :
    (entries.filter (·.1 ≠ key)).lookup other = entries.lookup other := by
  induction entries with
  | nil => rfl
  | cons entry rest ih =>
    by_cases hEntry : entry.1 = key
    · -- the entry that is dropped is not the one that is looked up
      have hPassed : (other == entry.1) = false := by simpa [hEntry] using hOther
      rw [List.filter_cons_of_neg (by simpa using hEntry), ih, List.lookup_cons, hPassed]
    · rw [List.filter_cons_of_pos (by simpa using hEntry), List.lookup_cons, List.lookup_cons, ih]

theorem node?_put_of_ne (hOther : other ≠ location) :
    (files.put location node).node? other = files.node? other := by
  have hFront : (other == location) = false := by simpa using hOther
  unfold node? put
  rw [List.lookup_cons, hFront, lookup_filter_of_ne hOther]

theorem node?_erase_of_ne (hOther : other ≠ location) :
    (files.erase location).node? other = files.node? other := by
  unfold node? erase
  rw [lookup_filter_of_ne hOther]

theorem node?_erase_self (hRoot : location ≠ []) : (files.erase location).node? location = none := by
  rw [node?, if_neg hRoot, erase, List.lookup_eq_none_iff]
  intro entry hEntry
  have hOther : entry.1 ≠ location := by simpa using (List.mem_filter.mp hEntry).2
  simpa using hOther.symm

theorem put_put (node' : Node) :
    (files.put location node').put location node = files.put location node := by
  simp [put]

/-- The root is a directory, whatever the tree holds. -/
theorem ne_root_of_not_directory (hFile : files.isDirectoryAt location = false) : location ≠ [] := by
  rintro rfl
  simp [isDirectoryAt, node?] at hFile

/-! ## Files change no directories -/

theorem isDirectoryAt_put_file (hFile : files.isDirectoryAt location = false) (other : Location) :
    (files.put location (.file content)).isDirectoryAt other = files.isDirectoryAt other := by
  have hRoot : location ≠ [] := ne_root_of_not_directory hFile
  by_cases hOther : other = location
  · -- neither the file nor what it replaces is a directory
    rw [hOther, hFile, isDirectoryAt, node?_put_self hRoot]
    simp
  · rw [isDirectoryAt, node?_put_of_ne hOther, isDirectoryAt]

theorem walk_put_file (hFile : files.isDirectoryAt location = false) (start : Location)
    (pieces : List String) :
    (files.put location (.file content)).walk start pieces = files.walk start pieces := by
  induction pieces generalizing start with
  | nil => rfl
  | cons piece rest ih =>
    unfold walk
    rw [isDirectoryAt_put_file hFile, ih, ih, ih]

theorem resolve?_put_file (hFile : files.isDirectoryAt location = false) (here : Location)
    (p : Path) : (files.put location (.file content)).resolve? here p = files.resolve? here p := by
  unfold resolve?
  rw [walk_put_file hFile]

/-! ## Writing a file -/

/-- A file is written where its path leads, and never over a directory. -/
theorem write?_eq_some (hWrite : files.write? here p content = some files') :
    ∃ location, files.resolve? here p = some location ∧ files.isDirectoryAt location = false ∧
      files' = files.put location (.file content) := by
  unfold write? at hWrite
  split at hWrite
  case h_1 => cases hWrite
  case h_2 location hResolve =>
    split at hWrite
    case isTrue => cases hWrite
    case isFalse hFile =>
      cases hWrite
      exact ⟨location, hResolve, by simpa using hFile, rfl⟩

theorem nodeAt?_write (hWrite : files.write? here p content = some files') :
    files'.nodeAt? here p = some (.file content) := by
  obtain ⟨location, hResolve, hFile, rfl⟩ := write?_eq_some hWrite
  rw [nodeAt?, resolve?_put_file hFile, hResolve]
  exact node?_put_self (ne_root_of_not_directory hFile)

/-- **What was written into a file is read from it.** -/
theorem readText?_writeText {s : String} (hWrite : files.writeText? here p s = some files') :
    files'.readText? here p = some s := by
  rw [readText?, nodeAt?_write hWrite]

theorem exists?_write (hWrite : files.write? here p content = some files') :
    files'.exists? here p = true := by
  rw [exists?, nodeAt?_write hWrite]
  rfl

theorem write?_again (hWrite : files.write? here p content = some files') :
    files'.write? here p content = some files' := by
  obtain ⟨location, hResolve, hFile, rfl⟩ := write?_eq_some hWrite
  have hStill : (files.put location (.file content)).isDirectoryAt location = false := by
    rw [isDirectoryAt_put_file hFile, hFile]
  rw [write?, resolve?_put_file hFile, hResolve]
  simp [hStill, put_put]

/-! ## Making directories -/

/-- Every directory of one tree is also a directory of another. -/
def Keeps (files files' : Files) : Prop :=
  ∀ location, files.isDirectoryAt location = true → files'.isDirectoryAt location = true

theorem Keeps.refl (files : Files) : Keeps files files := fun _ h => h

theorem Keeps.trans (h : Keeps files files') (h' : Keeps files' after) : Keeps files after :=
  fun location hDirectory => h' location (h location hDirectory)

theorem keeps_put_file (hFile : files.isDirectoryAt location = false) :
    Keeps files (files.put location (.file content)) := by
  intro other hDirectory
  rw [isDirectoryAt_put_file hFile, hDirectory]

/-- A directory is only made where there is nothing. -/
theorem keeps_put_directory (hNone : files.node? location = none) :
    Keeps files (files.put location .directory) := by
  intro other hDirectory
  have hOther : other ≠ location := by
    rintro rfl
    simp [isDirectoryAt, hNone] at hDirectory
  rw [isDirectoryAt, node?_put_of_ne hOther]
  exact hDirectory

theorem makeAlong_keeps (files : Files) (location : Location) (pieces : List String) :
    Keeps files (files.makeAlong location pieces).2 := by
  fun_induction makeAlong files location pieces with
  | case1 => exact Keeps.refl _
  | case2 _ _ _ _ _ ih => exact ih
  | case3 _ _ _ _ ih => exact ih
  | case4 => exact Keeps.refl _
  | case5 _ _ _ _ _ _ _ _ _ ih => exact ih
  | case6 => exact Keeps.refl _
  | case7 files location piece rest hBlank hUp hLength location' hNone ih =>
    exact (keeps_put_directory hNone).trans ih

/-- Making directories along a path passes over one that is there. -/
theorem makeAlong_cons {piece : String} {rest : List String}
    (hBlank : ¬ (piece = "" || piece = ".") = true) (hUp : piece ≠ "..")
    (hLength : ¬ nameLimit < piece.utf8ByteSize)
    (hThere : files.isDirectoryAt (location ++ [piece]) = true) :
    files.makeAlong location (piece :: rest) = files.makeAlong (location ++ [piece]) rest := by
  have hNode : files.node? (location ++ [piece]) = some .directory := by
    simpa [isDirectoryAt] using hThere
  rw [makeAlong, if_neg hBlank, if_neg hUp, if_neg hLength]
  simp only [hNode]

/-- **Directories that were made along a path are there**, and making them again changes nothing. -/
theorem makeAlong_again {pieces : List String}
    (hMade : files.makeAlong location pieces = (true, files')) (hKeeps : Keeps files' after) :
    after.makeAlong location pieces = (true, after) := by
  fun_induction makeAlong files location pieces with
  | case1 => rfl
  | case2 files location piece rest hBlank ih =>
    rw [makeAlong, if_pos hBlank]
    exact ih hMade
  | case3 files location rest hBlank ih =>
    rw [makeAlong, if_neg hBlank, if_pos rfl]
    exact ih hMade
  | case4 => cases hMade
  | case5 files location piece rest hBlank hUp hLength location' hNode ih =>
    -- a directory that is passed over stays until the end and beyond it
    have hKept : Keeps files files' := by
      have hAlong := makeAlong_keeps files location' rest
      rwa [hMade] at hAlong
    have hHere : files.isDirectoryAt location' = true := by simp [isDirectoryAt, hNode]
    have hThere : after.isDirectoryAt location' = true := hKept.trans hKeeps _ hHere
    rw [makeAlong_cons hBlank hUp hLength hThere]
    exact ih hMade
  | case6 => cases hMade
  | case7 files location piece rest hBlank hUp hLength location' hNone ih =>
    -- so does one that is made on the way
    have hKept : Keeps (files.put location' .directory) files' := by
      have hAlong := makeAlong_keeps (files.put location' .directory) location' rest
      rwa [hMade] at hAlong
    have hHere : (files.put location' .directory).isDirectoryAt location' = true := by
      rw [isDirectoryAt, node?_put_self (by simp [location'])]
      simp
    have hThere : after.isDirectoryAt location' = true := hKept.trans hKeeps _ hHere
    rw [makeAlong_cons hBlank hUp hLength hThere]
    exact ih hMade

theorem makeDirectories_again (hMade : files.makeDirectories here p = (true, files'))
    (hKeeps : Keeps files' after) : after.makeDirectories here p = (true, after) := by
  unfold makeDirectories at hMade ⊢
  by_cases hEmpty : p.text.isEmpty = true
  · rw [if_pos hEmpty]
  · rw [if_neg hEmpty] at hMade ⊢
    by_cases hName : isName p = true
    · rw [if_pos hName] at hMade ⊢
      exact makeAlong_again hMade hKeeps
    · rw [if_neg hName] at hMade
      cases hMade

/-! ## Files that stay as they are -/

/-- A location holds the same file in two trees, or a file in neither. -/
def SameFile (location : Location) (files files' : Files) : Prop :=
  ∀ content, files'.node? location = some (.file content) ↔
    files.node? location = some (.file content)

theorem SameFile.refl (location : Location) (files : Files) : SameFile location files files :=
  fun _ => Iff.rfl

theorem SameFile.trans (h : SameFile location files files') (h' : SameFile location files' after) :
    SameFile location files after :=
  fun content => (h' content).trans (h content)

theorem contentAt?_eq_some : files.contentAt? location = some content ↔
    files.node? location = some (.file content) := by
  unfold contentAt?
  split
  · rename_i found hNode
    simp [hNode]
  · rename_i hNone
    simpa using hNone content

theorem contentAt?_congr (h : SameFile location files files') :
    files'.contentAt? location = files.contentAt? location := by
  refine Option.ext fun content => ?_
  rw [contentAt?_eq_some, contentAt?_eq_some]
  exact h content

theorem sameFile_put_file (hOther : location ≠ other) :
    SameFile location files (files.put other (.file content)) := by
  intro found
  rw [node?_put_of_ne hOther]

theorem sameFile_erase (hOther : location ≠ other) : SameFile location files (files.erase other) := by
  intro found
  rw [node?_erase_of_ne hOther]

/-- A directory that is made takes the place of no file. -/
theorem sameFile_put_directory (hNone : files.node? other = none) :
    SameFile location files (files.put other .directory) := by
  intro found
  by_cases hOther : location = other
  · subst hOther
    have hRoot : location ≠ [] := by
      rintro rfl
      cases hNone
    simp [node?_put_self hRoot, hNone]
  · rw [node?_put_of_ne hOther]

theorem makeAlong_sameFile (files : Files) (start : Location) (pieces : List String) :
    SameFile location files (files.makeAlong start pieces).2 := by
  fun_induction makeAlong files start pieces with
  | case1 => exact SameFile.refl _ _
  | case2 _ _ _ _ _ ih => exact ih
  | case3 _ _ _ _ ih => exact ih
  | case4 => exact SameFile.refl _ _
  | case5 _ _ _ _ _ _ _ _ _ ih => exact ih
  | case6 => exact SameFile.refl _ _
  | case7 files start piece rest hBlank hUp hLength start' hNone ih =>
    exact (sameFile_put_directory hNone).trans ih

/-- Making directories touches no file, and no directory that is there. -/
theorem makeDirectories_keeps (files : Files) (here : Location) (p : Path) :
    Keeps files (files.makeDirectories here p).2 ∧
      ∀ location, SameFile location files (files.makeDirectories here p).2 := by
  unfold makeDirectories
  split
  · exact ⟨Keeps.refl files, fun location => SameFile.refl location files⟩
  · split
    · exact ⟨makeAlong_keeps files _ _, fun location => makeAlong_sameFile files _ _⟩
    · exact ⟨Keeps.refl files, fun location => SameFile.refl location files⟩

/-- A file is removed where its path leads. -/
theorem remove?_eq_some (hRemove : files.remove? here p = some files') :
    ∃ location, files.resolve? here p = some location ∧ files.isDirectoryAt location = false ∧
      files' = files.erase location := by
  unfold remove? at hRemove
  split at hRemove
  case h_1 => cases hRemove
  case h_2 location hResolve =>
    split at hRemove
    case h_1 content hNode =>
      cases hRemove
      exact ⟨location, hResolve, by simp [isDirectoryAt, hNode], rfl⟩
    case h_2 => cases hRemove

/-! ## Files that are removed -/

theorem isDirectoryAt_erase (hFile : files.isDirectoryAt location = false) (other : Location) :
    (files.erase location).isDirectoryAt other = files.isDirectoryAt other := by
  have hRoot : location ≠ [] := ne_root_of_not_directory hFile
  by_cases hOther : other = location
  · rw [hOther, hFile, isDirectoryAt, node?_erase_self hRoot]
    rfl
  · rw [isDirectoryAt, node?_erase_of_ne hOther, isDirectoryAt]

theorem walk_erase (hFile : files.isDirectoryAt location = false) (start : Location)
    (pieces : List String) : (files.erase location).walk start pieces = files.walk start pieces := by
  induction pieces generalizing start with
  | nil => rfl
  | cons piece rest ih =>
    unfold walk
    rw [isDirectoryAt_erase hFile, ih, ih, ih]

/-- **A file that was removed is not there.** -/
theorem exists?_remove (hRemove : files.remove? here p = some files') :
    files'.exists? here p = false := by
  obtain ⟨location, hResolve, hFile, rfl⟩ := remove?_eq_some hRemove
  have hSame : (files.erase location).resolve? here p = files.resolve? here p := by
    unfold resolve?
    rw [walk_erase hFile]
  rw [exists?, nodeAt?, hSame, hResolve]
  show ((files.erase location).node? location).isSome = false
  rw [node?_erase_self (ne_root_of_not_directory hFile)]
  rfl

/-! ## Where a path ends -/

/-- A name that is followed as it stands. -/
def IsPlain (name : String) : Prop :=
  name ≠ "" ∧ name ≠ "." ∧ name ≠ ".." ∧ name.utf8ByteSize ≤ nameLimit

instance (name : String) : Decidable (IsPlain name) := inferInstanceAs (Decidable (_ ∧ _ ∧ _ ∧ _))

theorem walk_cons_of_plain {name : String} (hPlain : IsPlain name) (start : Location)
    (rest : List String) :
    files.walk start (name :: rest) =
      if files.isDirectoryAt start then files.walk (start ++ [name]) rest else none := by
  obtain ⟨hEmpty, hDot, hUp, hLength⟩ := hPlain
  rw [walk]
  by_cases hStart : files.isDirectoryAt start = true
  · simp [hStart, hEmpty, hDot, hUp, Nat.not_lt.mpr hLength]
  · simp [hStart]

/-- What a path leads to is called by its last name. -/
theorem walk_concat {name : String} (hPlain : IsPlain name) {pieces : List String}
    {start : Location} (hWalk : files.walk start (pieces ++ [name]) = some location) :
    ∃ directory, location = directory ++ [name] := by
  induction pieces generalizing start with
  | nil =>
    rw [List.nil_append, walk_cons_of_plain hPlain] at hWalk
    split at hWalk
    · cases hWalk
      exact ⟨start, rfl⟩
    · cases hWalk
  | cons piece rest ih =>
    -- whatever the first piece says, the rest is followed from somewhere
    rw [List.cons_append] at hWalk
    unfold walk at hWalk
    split at hWalk
    · cases hWalk
    · split at hWalk
      · exact ih hWalk
      · split at hWalk
        · exact ih hWalk
        · split at hWalk
          · cases hWalk
          · exact ih hWalk

/-- What is joined to a path is called by the name that was joined. -/
theorem resolve?_join {name : String} (hPlain : IsPlain name) (hName : '/' ∉ name.toList)
    (hResolve : files.resolve? here (p.join name) = some location) :
    ∃ directory, location = directory ++ [name] := by
  obtain ⟨front, hPieces⟩ := p.exists_pieces_join hName
  unfold resolve? at hResolve
  rw [hPieces] at hResolve
  split at hResolve
  · exact walk_concat hPlain hResolve
  · cases hResolve

end Latch.Files
