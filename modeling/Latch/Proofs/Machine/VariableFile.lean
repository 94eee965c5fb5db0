import Latch.Machine.Libraries
import Latch.Proofs.Machine.Files

/-!
# Variables that differ

Two environments may differ in one variable and agree on all others. A variable file can pass the
difference on, but only by a reference, and every reference begins with a dollar sign.

* `Environment.AgreeExcept` — two environments agree on everything but one variable;
* `VariableFile.SameAround` — the same variable files are in a directory and above it;
* `Libraries.LoadsNearby` — variables are loaded from those files and from no others.

Main results:

* `Environment.AgreeExcept.configPath_eq` — the switch does not decide where the settings are;
* `VariableFile.mem_upwards` — a variable file is looked for in a directory and above it;
* `Libraries.loadsNearby_standard` — variables stay the same as long as all those files stay;
* `VariableFile.agree_load` — a file without references does not pass a difference on.
-/

namespace Latch

open Text (isBlank trim)

/-! ## Environments -/

namespace Environment

variable {environment environment' : Environment} {hidden name value : String}

/-- Two environments agree on all variables but one, and on the account. -/
structure AgreeExcept (hidden : String) (environment environment' : Environment) : Prop where
  values : ∀ name, name ≠ hidden → environment.get? name = environment'.get? name
  account : environment.accountHome? = environment'.accountHome?

theorem get?_set_self : (environment.set name value).get? name = some value :=
  List.lookup_cons_self

theorem get?_set_of_ne {other : String} (hOther : other ≠ name) :
    (environment.set name value).get? other = environment.get? other := by
  have hFront : (other == name) = false := by simpa using hOther
  rw [get?, set, List.lookup_cons, hFront]
  exact Files.lookup_filter_of_ne hOther environment.bindings

theorem AgreeExcept.set (h : AgreeExcept hidden environment environment') (name value : String) :
    AgreeExcept hidden (environment.set name value) (environment'.set name value) := by
  refine ⟨fun other hOther => ?_, h.account⟩
  by_cases hName : other = name
  · rw [hName, get?_set_self, get?_set_self]
  · rw [get?_set_of_ne hName, get?_set_of_ne hName]
    exact h.values other hOther

/-- The variable that is not looked at may be set on one side alone. -/
theorem agreeExcept_set_hidden (environment : Environment) (hidden value : String) :
    AgreeExcept hidden environment (environment.set hidden value) :=
  ⟨fun _ hOther => (get?_set_of_ne hOther).symm, rfl⟩

theorem AgreeExcept.symm (h : AgreeExcept hidden environment environment') :
    AgreeExcept hidden environment' environment :=
  ⟨fun name hName => (h.values name hName).symm, h.account.symm⟩

theorem AgreeExcept.trans {later : Environment} (h : AgreeExcept hidden environment environment')
    (h' : AgreeExcept hidden environment' later) : AgreeExcept hidden environment later :=
  ⟨fun name hName => (h.values name hName).trans (h'.values name hName), h.account.trans h'.account⟩

/-- **The switch does not decide where the settings are.** -/
theorem AgreeExcept.configPath_eq
    (h : AgreeExcept perUserLockingVariable environment environment') :
    environment.configPath = environment'.configPath := by
  have hDirectory : environment.get? configDirectoryVariable =
      environment'.get? configDirectoryVariable := h.values _ (by decide)
  have hBase : environment.get? "XDG_CONFIG_HOME" = environment'.get? "XDG_CONFIG_HOME" :=
    h.values _ (by decide)
  have hHome : environment.get? "HOME" = environment'.get? "HOME" := h.values _ (by decide)
  unfold configPath configDirectory base home
  rw [hDirectory, hBase, hHome, h.account]

end Environment

namespace VariableFile

open Environment (AgreeExcept)

variable {environment environment' : Environment} {hidden : String} {cs : List Char}

/-! ## Values without references -/

/-- A text without a dollar sign. -/
def Unreferring (cs : List Char) : Prop := '$' ∉ cs

theorem Unreferring.subset {cs' : List Char} (h : Unreferring cs) (hSub : cs' ⊆ cs) :
    Unreferring cs' :=
  fun hMem => h (hSub hMem)

/-- Where no reference is open, the value that was read is there. -/
theorem finish?_of_none {r : Reading} (hNone : r.reference = .none)
    (environment environment' : Environment) : r.finish? environment = r.finish? environment' := by
  unfold Reading.finish? Reading.settle
  rw [hNone]

/-- A character after a backslash opens no reference. -/
theorem reference_takeEscaped? {r r' : Reading} {c : Char} (h : r.takeEscaped? c = some r') :
    r'.reference = r.reference := by
  unfold Reading.takeEscaped? at h
  split at h
  · cases h
    rfl
  · split at h
    · cases h
      rfl
    · cases h

/-- No character but a dollar sign opens a reference. -/
theorem reference_takePlain? {r r' : Reading} {c : Char} (hPlain : c ≠ '$')
    (h : r.takePlain? c = some r') : r'.reference = r.reference := by
  unfold Reading.takePlain? at h
  rw [if_neg hPlain] at h
  repeat' split at h
  all_goals cases h
  all_goals rfl

/-- What is read of a text without dollar signs does not depend on the environment. -/
theorem readFrom?_congr {r : Reading} (hNone : r.reference = .none) (hText : Unreferring cs)
    (environment environment' : Environment) :
    readFrom? environment r cs = readFrom? environment' r cs := by
  induction cs generalizing r with
  | nil => exact finish?_of_none hNone environment environment'
  | cons c rest ih =>
    have hPlain : c ≠ '$' := fun hEq => hText (by simp [hEq])
    have hRest : Unreferring rest := hText.subset (List.subset_cons_self c rest)
    unfold readFrom?
    split
    · -- the character before was a backslash
      cases hEscaped : r.takeEscaped? c with
      | none => rfl
      | some r' => exact ih ((reference_takeEscaped? hEscaped).trans hNone) hRest
    · split
      · refine ih ?_ hRest
        split <;> exact hNone
      · -- no reference is open, so the character is plain
        have hClosed : ¬ r.reference ≠ .none := fun hOpen => hOpen hNone
        rw [if_neg hClosed, if_neg hClosed]
        cases hTake : r.takePlain? c with
        | none => rw [finish?_of_none hNone environment environment']
        | some r' => exact ih ((reference_takePlain? hPlain hTake).trans hNone) hRest

/-! ## Entries -/

theorem name?_subset {name rest : List Char} (h : name? cs = some (name, rest)) : rest ⊆ cs := by
  unfold name? at h
  split at h
  · cases h
  · split at h
    · cases h
      exact fun c hc => (List.dropWhile_suffix _).subset ((List.dropWhile_suffix _).subset hc)
    · cases h

/-- The value of an assignment is a part of its line. -/
theorem assignment?_subset {name value : List Char} (h : assignment? cs = some (name, value)) :
    value ⊆ cs := by
  unfold assignment? at h
  cases hName : name? cs with
  | none => simp [hName] at h
  | some found =>
    obtain ⟨first, rest⟩ := found
    have hSub := name?_subset hName
    simp only [hName, Option.bind_eq_bind, Option.bind_some] at h
    split at h
    · cases h
      exact fun c hc => hSub (List.mem_cons_of_mem _ hc)
    · split at h
      · -- the name comes after the word `export`
        cases hNext : name? rest with
        | none => simp [hNext] at h
        | some found =>
          obtain ⟨second, tail⟩ := found
          have hTail := name?_subset hNext
          simp only [hNext, Option.bind_some] at h
          split at h
          · cases h
            exact fun c hc => hSub (hTail (List.mem_cons_of_mem _ hc))
          · cases h
      · cases h

theorem trim_subset (cs : List Char) : trim cs ⊆ cs := by
  intro c hc
  rw [trim, List.mem_reverse] at hc
  have hFront := (List.dropWhile_suffix _).subset hc
  rw [List.mem_reverse] at hFront
  exact (List.dropWhile_suffix _).subset hFront

theorem entry?_congr (hLine : Unreferring cs) (environment environment' : Environment) :
    entry? environment cs = entry? environment' cs := by
  unfold entry?
  dsimp only
  split
  · rfl
  · cases hAssignment : assignment? (trim cs) with
    | none => rfl
    | some found =>
      obtain ⟨name, value⟩ := found
      have hValue : Unreferring (value.dropWhile isBlank) := by
        refine hLine.subset fun c hc => trim_subset cs (assignment?_subset hAssignment ?_)
        exact (List.dropWhile_suffix _).subset hc
      have hRead : readValue? environment (value.dropWhile isBlank) =
          readValue? environment' (value.dropWhile isBlank) :=
        readFrom?_congr rfl hValue environment environment'
      simp only [Option.bind_eq_bind, Option.bind_some, hRead]

/-! ## Lines -/

theorem follow_subset (quoting : Quoting) (cs : List Char) : (follow quoting cs).1 ⊆ cs := by
  induction cs generalizing quoting with
  | nil => simp [follow]
  | cons c rest ih =>
    unfold follow
    cases quoting.step c with
    | none => simp
    | some next => exact List.cons_subset_cons c (ih next)

theorem physicalLines_subset {line : List Char} (h : line ∈ physicalLines cs) : line ⊆ cs := by
  induction cs generalizing line with
  | nil => simp [physicalLines] at h
  | cons c rest ih =>
    unfold physicalLines at h
    split at h
    · rename_i hEnd
      rcases List.mem_cons.mp h with rfl | hMem
      · simp [hEnd]
      · exact fun d hd => List.mem_cons_of_mem c (ih hMem hd)
    · split at h
      · rw [List.mem_singleton] at h
        simp [h]
      · rename_i first lines hLines
        rcases List.mem_cons.mp h with rfl | hMem
        · exact List.cons_subset_cons c (ih (by simp [hLines]))
        · exact fun d hd => List.mem_cons_of_mem c (ih (by simp [hLines, hMem]) hd)

theorem unreferring_logicalLines {quoting : Quoting} {seen line : List Char}
    {lines : List (List Char)} (hSeen : Unreferring seen) (hLines : ∀ l ∈ lines, Unreferring l)
    (h : some line ∈ logicalLines quoting seen lines) : Unreferring line := by
  have hEmpty : Unreferring [] := by simp [Unreferring]
  -- what is kept of a line, behind what was seen before, holds no dollar sign either
  have hKept : ∀ {seen first kept : List Char} {quoting : Quoting} {final : Option Quoting},
      Unreferring seen → Unreferring first → follow quoting first = (kept, final) →
      Unreferring (seen ++ kept) := by
    intro seen first kept quoting final hOld hFirst hFollow hMem
    have hSub := follow_subset quoting first
    rw [hFollow] at hSub
    rcases List.mem_append.mp hMem with hMem | hMem
    · exact hOld hMem
    · exact hFirst (hSub hMem)
  induction lines generalizing quoting seen with
  | nil =>
    unfold logicalLines at h
    split at h <;> simp at h
  | cons first rest ih =>
    obtain ⟨hFirst, hRest⟩ := List.forall_mem_cons.mp hLines
    unfold logicalLines at h
    split at h
    · exact ih hEmpty hRest h
    · split at h
      · rename_i kept hFollow
        rcases List.mem_cons.mp h with hEq | hMem
        · cases hEq
          exact hKept hSeen hFirst hFollow
        · exact ih hEmpty hRest hMem
      · rename_i kept hFollow
        rcases List.mem_cons.mp h with hEq | hMem
        · cases hEq
          exact hKept hSeen hFirst hFollow
        · exact ih hEmpty hRest hMem
      · -- the quotation goes on in the next line
        rename_i kept final _ hFollow
        exact ih (hKept hSeen hFirst hFollow) hRest h

/-! ## The environment after a file -/

theorem agree_setNew (h : AgreeExcept hidden environment environment') (name value : String) :
    AgreeExcept hidden (setNew environment name value) (setNew environment' name value) := by
  unfold setNew
  by_cases hName : name = hidden
  · -- the variable that is not looked at may be set on one side and not on the other
    subst hName
    have hLeft := Environment.agreeExcept_set_hidden environment name value
    have hRight := Environment.agreeExcept_set_hidden environment' name value
    split <;> split
    · exact h
    · exact h.trans hRight
    · exact hLeft.symm.trans h
    · exact hLeft.symm.trans (h.trans hRight)
  · rw [h.values name hName]
    split
    · exact h
    · exact h.set name value

theorem agree_applyLines {lines : List (Option (List Char))}
    (hLines : ∀ line, some line ∈ lines → Unreferring line)
    (h : AgreeExcept hidden environment environment') :
    AgreeExcept hidden (applyLines environment lines) (applyLines environment' lines) := by
  induction lines generalizing environment environment' with
  | nil => exact h
  | cons line rest ih =>
    have hRest : ∀ line, some line ∈ rest → Unreferring line :=
      fun line hMem => hLines line (List.mem_cons_of_mem _ hMem)
    cases line with
    | none => exact h
    | some line =>
      -- both sides read the same entry, or stop here for the same reason
      have hEntry := entry?_congr (hLines line (by simp)) environment environment'
      unfold applyLines
      rw [hEntry]
      split
      · exact ih hRest h
      · exact ih hRest (agree_setNew h _ _)
      · exact h

/-- A text without references does not pass a difference on. -/
theorem agree_apply {text : String} (hText : Unreferring text.toList)
    (h : AgreeExcept hidden environment environment') :
    AgreeExcept hidden (apply environment text) (apply environment' text) := by
  refine agree_applyLines (fun line hMem => ?_) h
  -- every line that is read is made of characters of the text
  refine unreferring_logicalLines (by simp [Unreferring]) (fun l hl => ?_) hMem
  refine hText.subset fun c hc => ?_
  have hMark := physicalLines_subset hl hc
  unfold dropByteOrderMark at hMark
  split at hMark
  · rename_i hSplit
    rw [hSplit]
    exact List.mem_cons_of_mem _ hMark
  · exact hMark

/-! ## The files around a directory -/

variable {files files' : Files} {here directory : Location}

theorem mem_upwards : directory ∈ upwards here ↔ directory <+: here := by
  induction here generalizing directory with
  | nil => simp [upwards]
  | cons name rest ih =>
    -- a directory above is the root, or lies below the first name as one above lies below the root
    rw [upwards, List.mem_append, List.mem_map, List.mem_singleton, List.prefix_cons_iff]
    constructor
    · rintro (⟨inner, hInner, rfl⟩ | rfl)
      · exact Or.inr ⟨inner, rfl, ih.mp hInner⟩
      · exact Or.inl rfl
    · rintro (rfl | ⟨inner, rfl, hInner⟩)
      · exact Or.inr rfl
      · exact Or.inl ⟨inner, ih.mpr hInner, rfl⟩

/-- The same variable files are in a directory and above it. -/
def SameAround (here : Location) (files files' : Files) : Prop :=
  ∀ directory, directory <+: here → Files.SameFile (directory ++ [fileName]) files files'

theorem SameAround.refl (here : Location) (files : Files) : SameAround here files files :=
  fun _ _ => Files.SameFile.refl _ _

theorem SameAround.trans {after : Files} (h : SameAround here files files')
    (h' : SameAround here files' after) : SameAround here files after :=
  fun directory hAbove => (h directory hAbove).trans (h' directory hAbove)

/-- The file that is found stays as long as the files around the directory stay. -/
theorem find?_congr (h : SameAround here files files') : find? files' here = find? files here := by
  have hContent : ∀ location ∈ candidates here, files'.contentAt? location = files.contentAt? location := by
    intro location hLocation
    obtain ⟨directory, hDirectory, rfl⟩ := List.mem_map.mp hLocation
    exact Files.contentAt?_congr (h directory (mem_upwards.mp hDirectory))
  unfold find?
  -- the search looks at one place after the other, and at nothing else
  generalize candidates here = places at hContent
  induction places with
  | nil => rfl
  | cons place places ih =>
    obtain ⟨hPlace, hPlaces⟩ := List.forall_mem_cons.mp hContent
    rw [List.findSome?_cons, List.findSome?_cons, hPlace, ih hPlaces]

/-- **A variable file without references does not pass a difference on.** -/
theorem agree_load
    (hFile : ∀ content, find? files here = some content → Unreferring (leadingText content).toList)
    (h : AgreeExcept hidden environment environment') :
    AgreeExcept hidden (load files here environment) (load files here environment') := by
  unfold load
  cases hFound : find? files here with
  | none => exact h
  | some content => exact agree_apply (hFile content hFound) h

end VariableFile

/-! ## What a program needs of its libraries -/

namespace Libraries

open VariableFile (SameAround)

/-- Variables are loaded from the files named `.env` in the current directory and above it: while those
stay as they are, the same variables are loaded. -/
def LoadsNearby (libraries : Libraries) : Prop :=
  ∀ (files files' : Files) (here : Location), SameAround here files files' →
    ∀ environment, libraries.loadVariables files' here environment =
      libraries.loadVariables files here environment

theorem loadsNearby_standard : standard.LoadsNearby := by
  intro files files' here hSame environment
  show VariableFile.load files' here environment = VariableFile.load files here environment
  unfold VariableFile.load
  rw [VariableFile.find?_congr hSame]

end Libraries

end Latch
