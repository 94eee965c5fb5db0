import Latch.Json.Typed
import Latch.Proofs.Json.Values

/-!
# Values of known type

A reader that knows which type comes next is exact: of all well-formed values it reads just those that a
value of its type may be written as, each up to its end and with any spaces before it.

* `Json.Reads` — a reader reads a text as a value;
* `Json.ReadsExactly` — it reads a well-formed value just if that is how its result may be written;
* `Json.WritesBool`, `Json.WritesText`, `Json.WritesOptional`, `Json.WritesInteger` — how values may be
  written.

Main results:

* `Json.readsExactly_bool`, `Json.readsExactly_text`, `Json.ReadsExactly.optional`,
  `Json.readsExactly_integer` — the readers of values without parts are exact.
-/

namespace Latch.Json

variable {α : Type} {read : Reader α} {Writes : List Char → α → Prop}
variable {cs more rest rest' space value : List Char} {c : Char} {a : α}

/-- The reader reads the text as the value. -/
def Reads (read : Reader α) (text : List Char) (a : α) : Prop :=
  ∀ ⦃space rest : List Char⦄, Spaces space → Ends rest → read (space ++ (text ++ rest)) = .ok (a, rest)

/-- Of the well-formed values the reader reads just those that its result may be written as. -/
structure ReadsExactly (read : Reader α) (Writes : List Char → α → Prop) : Prop where
  reads : ∀ ⦃value a⦄, Writes value a → Reads read value a
  writes : ∀ ⦃space value rest a rest'⦄, Spaces space → IsValue value → Ends rest →
    read (space ++ (value ++ rest)) = .ok (a, rest') → Writes value a

theorem ReadsExactly.eq_ok_iff (h : ReadsExactly read Writes) (hSpace : Spaces space)
    (hValue : IsValue value) (hEnds : Ends rest) :
    read (space ++ (value ++ rest)) = .ok (a, rest') ↔ Writes value a ∧ rest' = rest := by
  constructor
  · intro hRead
    have hWrites := h.writes hSpace hValue hEnds hRead
    rw [h.reads hWrites hSpace hEnds] at hRead
    cases hRead
    exact ⟨hWrites, rfl⟩
  · rintro ⟨hWrites, rfl⟩
    exact h.reads hWrites hSpace hEnds

/-- The first character of a value is found behind the spaces. -/
theorem dropSpace_value (hSpace : Spaces space) (hStarts : StartsValue c more) :
    dropSpace (space ++ (c :: more ++ rest)) = c :: (more ++ rest) :=
  dropSpace_append hSpace hStarts.ne.1

/-! ## Truth values -/

def WritesBool (value : List Char) (b : Bool) : Prop := value = (boolText b).toList

theorem readsExactly_bool : ReadsExactly readBool WritesBool where
  reads := by
    rintro _ b rfl space rest hSpace hEnds
    cases b with
    | true =>
      show readBool (space ++ 't' :: ("rue".toList ++ rest)) = _
      rw [readBool, dropSpace_append hSpace rfl]
      rfl
    | false =>
      show readBool (space ++ 'f' :: ("alse".toList ++ rest)) = _
      rw [readBool, dropSpace_append hSpace rfl]
      rfl
  writes := by
    intro space value rest b rest' hSpace hValue hEnds hRead
    obtain ⟨c, more, rfl, hStarts⟩ := hValue.starts
    rw [readBool, dropSpace_value hSpace hStarts] at hRead
    dsimp only at hRead
    split at hRead
    case isTrue hTrue =>
      subst hTrue
      cases hStarts.told.true rfl
      cases hRead
      rfl
    case isFalse =>
      split at hRead
      case isTrue hFalse =>
        subst hFalse
        cases hStarts.told.false rfl
        cases hRead
        rfl
      case isFalse => cases hRead

/-! ## Texts -/

def WritesText (value : List Char) (s : String) : Prop := ∃ cs, Text.Spells cs s.toList ∧ value = quoted cs

theorem quoted_append (cs rest : List Char) : quoted cs ++ rest = '"' :: (cs ++ '"' :: rest) := by
  simp [quoted]

theorem readsExactly_text : ReadsExactly readText WritesText where
  reads := by
    rintro _ s ⟨cs, hSpells, rfl⟩ space rest hSpace hEnds
    rw [quoted_append, readText, dropSpace_append hSpace rfl]
    dsimp only
    rw [if_pos rfl, Text.read_of_spells hSpells]
    show Except.ok (String.ofList s.toList, rest) = .ok (s, rest)
    rw [String.ofList_toList]
  writes := by
    intro space value rest s rest' hSpace hValue hEnds hRead
    obtain ⟨c, more, rfl, hStarts⟩ := hValue.starts
    rw [readText, dropSpace_value hSpace hStarts] at hRead
    dsimp only at hRead
    split at hRead
    case isTrue hQuote =>
      subst hQuote
      obtain ⟨cs, hSpelling, rfl⟩ := hStarts.told.text rfl
      rw [List.append_assoc, map_eq_ok_iff] at hRead
      obtain ⟨⟨text, rest''⟩, hText, hSame⟩ := hRead
      cases hSame
      refine ⟨cs, ?_, rfl⟩
      rw [String.toList_ofList]
      exact ((Text.read_eq_ok_iff hSpelling).mp hText).1
    case isFalse => cases hRead

theorem writesText_compact (s : String) : WritesText (text s).compact s :=
  ⟨s.toList.flatMap escapeChar, Text.spells_escaped s.toList, quote_eq s⟩

/-! ## Values that may be missing -/

/-- What may be missing is written as `null`, or as itself. -/
inductive WritesOptional (Writes : List Char → α → Prop) : List Char → Option α → Prop
  | null : WritesOptional Writes "null".toList none
  | given {value : List Char} {a : α} (hWrites : Writes value a) : WritesOptional Writes value (some a)

theorem writesOptional_compact (s : Option String) : WritesOptional WritesText (ofOption s).compact s := by
  cases s with
  | none => exact .null
  | some s => exact .given (writesText_compact s)

theorem readOptional_null (hSpace : Spaces space) :
    readOptional read (space ++ ("null".toList ++ rest)) = .ok (none, rest) := by
  show readOptional read (space ++ 'n' :: ("ull".toList ++ rest)) = _
  rw [readOptional, dropSpace_append hSpace rfl]
  rfl

/-- What does not start like `null` is read as a value. -/
theorem readOptional_of_ne (hChar : c ≠ 'n') (hPlain : isSpace c = false) (hSpace : Spaces space) :
    readOptional read (space ++ c :: rest) = (read (c :: rest)).map fun (a, rest) => (some a, rest) := by
  rw [readOptional, dropSpace_append hSpace hPlain]
  split
  · rename_i hSame
    exact absurd (List.cons.inj hSame).1 hChar
  · rfl

/-- A reader of values that no value writes as `null` may be told that the value can be missing. -/
theorem ReadsExactly.optional (h : ReadsExactly read Writes)
    (hWell : ∀ ⦃value a⦄, Writes value a → IsValue value ∧ value ≠ "null".toList) :
    ReadsExactly (readOptional read) (WritesOptional Writes) where
  reads := by
    rintro value a hWrites space rest hSpace hEnds
    cases hWrites with
    | null => exact readOptional_null hSpace
    | @given _ a hWrites =>
      obtain ⟨hValue, hNotNull⟩ := hWell hWrites
      obtain ⟨c, more, rfl, hStarts⟩ := hValue.starts
      have hChar : c ≠ 'n' := by
        rintro rfl
        cases hStarts.told.null rfl
        exact hNotNull rfl
      have hRead := h.reads hWrites spaces_nil hEnds
      rw [List.nil_append] at hRead
      rw [List.cons_append, readOptional_of_ne hChar hStarts.ne.1 hSpace]
      rw [List.cons_append] at hRead
      rw [hRead]
      rfl
  writes := by
    intro space value rest a rest' hSpace hValue hEnds hRead
    obtain ⟨c, more, rfl, hStarts⟩ := hValue.starts
    by_cases hChar : c = 'n'
    · subst hChar
      cases hStarts.told.null rfl
      change readOptional read (space ++ ("null".toList ++ rest)) = _ at hRead
      rw [readOptional_null hSpace] at hRead
      cases hRead
      exact .null
    · rw [List.cons_append, readOptional_of_ne hChar hStarts.ne.1 hSpace, map_eq_ok_iff] at hRead
      obtain ⟨⟨b, rest''⟩, hRead, hSame⟩ := hRead
      cases hSame
      exact .given (h.writes spaces_nil hValue hEnds hRead)

/-! ## Integers -/

/-- An integer of any size is written in plain decimal digits. -/
def WritesInteger (value : List Char) (z : Int) : Prop := value = Decimal.int z

/-- **Integers are read exactly.** A reader of integers up to 64 bits takes those within its range, and
each as itself. -/
theorem readsExactly_integer {fits : Int → Bool} (hFits : ∀ z, fits z = true → z.natAbs < UInt64.size) :
    ReadsExactly (readInteger fits) fun value z => WritesInteger value z ∧ fits z = true where
  reads := by
    rintro _ z ⟨rfl, hInRange⟩ space rest hSpace hEnds
    obtain ⟨number, hScan, hNumber⟩ := Number.scan_int (hFits z hInRange) hEnds
    obtain ⟨c, more, hText, hStarts⟩ := (isNumber_int z).head
    have hNumberText := isNumber_int z
    have hFirst : (c = '-' || Decimal.isDigit c) = true := hStarts
    rw [hText] at hScan hNumberText ⊢
    rw [List.cons_append] at hScan
    rw [readInteger, dropSpace_value hSpace (.number hStarts hNumberText)]
    dsimp only
    rw [if_pos hFirst, hScan]
    dsimp only
    rw [hNumber]
    exact if_pos hInRange
  writes := by
    intro space value rest z rest' hSpace hValue hEnds hRead
    obtain ⟨c, more, rfl, hStarts⟩ := hValue.starts
    rw [readInteger, dropSpace_value hSpace hStarts] at hRead
    dsimp only at hRead
    split at hRead
    case isTrue hNumber =>
      split at hRead
      · cases hRead
      · rename_i number rest'' hScan
        split at hRead
        · rename_i n hInteger
          split at hRead
          · rename_i hInRange
            cases hRead
            exact ⟨Number.eq_int_of_scan (hStarts.told.number hNumber) hEnds hScan hInteger, hInRange⟩
          · cases hRead
        · cases hRead
    case isFalse => cases hRead

end Latch.Json
