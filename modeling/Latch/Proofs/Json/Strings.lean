import Latch.Json.Lexeme
import Latch.Json.Value

/-!
# The spellings of a string

What may stand between the quotation marks of a JSON string. Each character of a text may be escaped or
not, so that a text has many spellings. Between quotation marks there may also be units that are only half
a character; such a string is well-formed, but it is the spelling of no text.

* `Json.Text.IsUnit` — a unit of 16 bits and its four digits;
* `Json.Text.IsSpelling` — what may stand between quotation marks;
* `Json.Text.Spells` — what spells a text.

Main results:

* `Json.Text.read_eq_ok_iff` — what may stand between quotation marks is read exactly if it spells a text,
  and as that text;
* `Json.Text.skip_spelling` — it is passed over in any case;
* `Json.Text.spells_escaped` — what a text is written as is one of its spellings.
-/

namespace Latch.Json

/-- What is made of a result is there if the result is. -/
theorem map_eq_ok_iff {α β : Type} {f : α → β} {result : Except Fault α} {b : β} :
    result.map f = .ok b ↔ ∃ a, result = .ok a ∧ f a = b := by
  cases result with
  | error fault => simp [Except.map]
  | ok a => simp [Except.map]

namespace Text

/-! ## Spellings -/

/-- The characters after a backslash, except `u`, and what they stand for. -/
def shortEscapes : List (Char × Char) :=
  [('"', '"'), ('\\', '\\'), ('/', '/'), ('b', '\x08'), ('f', '\x0c'), ('n', '\n'), ('r', '\r'),
    ('t', '\t')]

/-- Four hexadecimal digits and their value. -/
inductive IsUnit : List Char → Nat → Prop
  | digits {a b c d : Char} {i j k l : Nat} (hFirst : Hex.value? a = some i)
      (hSecond : Hex.value? b = some j) (hThird : Hex.value? c = some k)
      (hFourth : Hex.value? d = some l) : IsUnit [a, b, c, d] (((i * 16 + j) * 16 + k) * 16 + l)

/-- A character that may stand for itself. -/
structure IsPlain (c : Char) : Prop where
  notQuote : c ≠ '"'
  notBackslash : c ≠ '\\'
  printed : 0x20 ≤ c.toNat

/-- What may stand between the quotation marks of a string. -/
inductive IsSpelling : List Char → Prop
  | nil : IsSpelling []
  | plain {c : Char} {cs : List Char} (hPlain : IsPlain c) (hMore : IsSpelling cs) : IsSpelling (c :: cs)
  | short {c d : Char} {cs : List Char} (hShort : (c, d) ∈ shortEscapes) (hMore : IsSpelling cs) :
      IsSpelling ('\\' :: c :: cs)
  | unit {digits cs : List Char} {n : Nat} (hUnit : IsUnit digits n) (hMore : IsSpelling cs) :
      IsSpelling ('\\' :: 'u' :: (digits ++ cs))

def IsHigh (n : Nat) : Prop := 0xd800 ≤ n ∧ n < 0xdc00

def IsLow (n : Nat) : Prop := 0xdc00 ≤ n ∧ n < 0xe000

/-- What spells a text between quotation marks. A unit is a character on its own, or a high and a low unit
are one together: no character has the number of such a unit. -/
inductive Spells : List Char → List Char → Prop
  | nil : Spells [] []
  | plain {c : Char} {cs text : List Char} (hPlain : IsPlain c) (hMore : Spells cs text) :
      Spells (c :: cs) (c :: text)
  | short {c d : Char} {cs text : List Char} (hShort : (c, d) ∈ shortEscapes) (hMore : Spells cs text) :
      Spells ('\\' :: c :: cs) (d :: text)
  | unit {d : Char} {digits cs text : List Char} (hUnit : IsUnit digits d.toNat)
      (hMore : Spells cs text) : Spells ('\\' :: 'u' :: (digits ++ cs)) (d :: text)
  | pair {d : Char} {high low : Nat} {digits digits' cs text : List Char} (hUnit : IsUnit digits high)
      (hUnit' : IsUnit digits' low) (hHigh : IsHigh high) (hLow : IsLow low)
      (hChar : d.toNat = 0x10000 + (high - 0xd800) * 0x400 + (low - 0xdc00)) (hMore : Spells cs text) :
      Spells ('\\' :: 'u' :: (digits ++ '\\' :: 'u' :: (digits' ++ cs))) (d :: text)

variable {strict : Bool} {state next : State} {cs rest rest' text digits : List Char} {c d : Char}
variable {n : Nat}

/-- A spelling of a text is one of the things that may stand in a string. -/
theorem Spells.isSpelling (h : Spells cs text) : IsSpelling cs := by
  induction h with
  | nil => exact .nil
  | plain hPlain _ ih => exact .plain hPlain ih
  | short hShort _ ih => exact .short hShort ih
  | unit hUnit _ ih => exact .unit hUnit ih
  | pair hUnit hUnit' _ _ _ _ ih => exact .unit hUnit (.unit hUnit' ih)

theorem mem_shortEscapes_iff : (c, d) ∈ shortEscapes ↔ escaped? c = some d := by
  constructor
  · intro hMem
    simp only [shortEscapes, List.mem_cons, Prod.mk.injEq, List.not_mem_nil, or_false] at hMem
    rcases hMem with ⟨rfl, rfl⟩ | ⟨rfl, rfl⟩ | ⟨rfl, rfl⟩ | ⟨rfl, rfl⟩ | ⟨rfl, rfl⟩ | ⟨rfl, rfl⟩ |
      ⟨rfl, rfl⟩ | ⟨rfl, rfl⟩ <;> rfl
  · intro hEscaped
    unfold escaped? at hEscaped
    split at hEscaped <;> cases hEscaped <;> decide

theorem not_mem_shortEscapes : ('u', d) ∉ shortEscapes := by
  rw [mem_shortEscapes_iff]
  exact nofun

theorem IsUnit.lt (h : IsUnit digits n) : n < 0x10000 := by
  obtain ⟨hFirst, hSecond, hThird, hFourth⟩ := h
  have hI := Hex.value?_lt hFirst
  have hJ := Hex.value?_lt hSecond
  have hK := Hex.value?_lt hThird
  have hL := Hex.value?_lt hFourth
  omega

theorem isHigh_iff : isHigh n = true ↔ IsHigh n := by
  simp [isHigh, IsHigh]

theorem isLow_iff : isLow n = true ↔ IsLow n := by
  simp [isLow, IsLow]

theorem toNat_ofNat (hValid : n < 0xd800 ∨ 0xdfff < n ∧ n < 0x110000) : (Char.ofNat n).toNat = n := by
  rw [Char.ofNat, dif_pos hValid]
  rfl

/-- A unit that is no half is the number of a character. -/
theorem toNat_ofNat_of_whole (hUnit : IsUnit digits n) (hHigh : ¬ IsHigh n) (hLow : ¬ IsLow n) :
    (Char.ofNat n).toNat = n := by
  have hLt := hUnit.lt
  simp only [IsHigh, IsLow] at hHigh hLow
  exact toNat_ofNat (by omega)

/-- No character has the number of a half. -/
theorem not_half (d : Char) : ¬ IsHigh d.toNat ∧ ¬ IsLow d.toNat := by
  have hValid : d.toNat < 0xd800 ∨ 0xdfff < d.toNat ∧ d.toNat < 0x110000 := d.valid
  simp only [IsHigh, IsLow]
  omega

/-- A high and a low unit are the number of a character. -/
theorem toNat_pairChar {high low : Nat} (hHigh : IsHigh high) (hLow : IsLow low) :
    (pairChar high low).toNat = 0x10000 + (high - 0xd800) * 0x400 + (low - 0xdc00) := by
  obtain ⟨hHighLe, hHighLt⟩ := hHigh
  obtain ⟨hLowLe, hLowLt⟩ := hLow
  rw [pairChar, toNat_ofNat (by omega)]
  omega

/-! ## Running through a spelling -/

/-- What comes of a step, with what is left of the input. -/
def resume (strict : Bool) : Step → Reader (List Char)
  | .close, cs => .ok ([], cs)
  | .fail fault, _ => .error fault
  | .go out next, cs => (run strict next cs).map fun (text, rest) => (out ++ text, rest)

theorem run_cons : run strict state (c :: cs) = resume strict (step strict state c cs) cs := by
  rw [run]
  cases step strict state c cs <;> rfl

theorem resume_silent : resume strict (.go [] next) cs = run strict next cs := by
  rw [resume]
  cases run strict next cs <;> rfl

theorem run_plain (hPlain : IsPlain c) :
    run strict .plain (c :: cs) = resume strict (.go [c] .plain) cs := by
  rw [run_cons, step, if_neg hPlain.notQuote, if_neg hPlain.notBackslash,
    if_neg (Nat.not_lt.mpr hPlain.printed)]

theorem run_short (hShort : (c, d) ∈ shortEscapes) :
    run strict .plain ('\\' :: c :: cs) = resume strict (.go [d] .plain) cs := by
  have hNot : c ≠ 'u' := by
    rintro rfl
    exact not_mem_shortEscapes hShort
  rw [run_cons]
  show resume strict (.go [] .escape) (c :: cs) = _
  rw [resume_silent, run_cons, step, if_neg hNot, mem_shortEscapes_iff.mp hShort]

/-- The four digits of a unit, whether it is the first or the second one of a character. -/
theorem run_digits {again : Nat → Nat → State} {finish : Nat → Step}
    (hStep : ∀ left value c rest,
      step strict (again left value) c rest = digitStep again finish left value c rest)
    (hUnit : IsUnit digits n) :
    run strict (again 4 0) (digits ++ cs) = resume strict (finish n) cs := by
  obtain ⟨hFirst, hSecond, hThird, hFourth⟩ := hUnit
  have hDigit : ∀ {left value i : Nat} {c : Char} {rest : List Char}, Hex.value? c = some i → 1 < left →
      run strict (again left value) (c :: rest) = run strict (again (left - 1) (value * 16 + i)) rest := by
    intro left value i c rest hValue hLeft
    rw [run_cons, hStep, digitStep, hValue]
    dsimp only
    rw [if_neg (Nat.not_le.mpr hLeft), resume_silent]
  simp only [List.cons_append, List.nil_append]
  rw [hDigit hFirst (by decide), hDigit hSecond (by decide), hDigit hThird (by decide), run_cons, hStep,
    digitStep, hFourth]
  simp

/-- A unit where a character may begin. -/
theorem run_unit (hUnit : IsUnit digits n) :
    run strict .plain ('\\' :: 'u' :: (digits ++ cs)) = resume strict (unitDone strict n) cs := by
  rw [run_cons]
  show resume strict (.go [] .escape) _ = _
  rw [resume_silent, run_cons]
  show resume strict (.go [] (.unit 4 0)) _ = _
  rw [resume_silent]
  exact run_digits (fun _ _ _ _ => rfl) hUnit

/-- A unit after a high one. -/
theorem run_second {high : Nat} (hUnit : IsUnit digits n) :
    run strict (.high high) ('\\' :: 'u' :: (digits ++ cs)) = resume strict (lowDone high n) cs := by
  rw [run_cons]
  show resume strict (.go [] (.highEscape high)) _ = _
  rw [resume_silent, run_cons]
  show resume strict (.go [] (.low high 4 0)) _ = _
  rw [resume_silent]
  exact run_digits (fun _ _ _ _ => rfl) hUnit

theorem run_quote : run strict .plain ('"' :: rest) = .ok ([], rest) := rfl

theorem resume_eq_ok_iff {out : List Char} :
    resume strict (.go out next) cs = .ok (text, rest) ↔
      ∃ text', run strict next cs = .ok (text', rest) ∧ out ++ text' = text := by
  rw [resume, map_eq_ok_iff]
  constructor
  · rintro ⟨⟨text', rest'⟩, hRun, hSame⟩
    cases hSame
    exact ⟨text', hRun, rfl⟩
  · rintro ⟨text', hRun, rfl⟩
    exact ⟨(text', rest), hRun, rfl⟩

/-! ## Skipping -/

/-- **What may stand between quotation marks is passed over**, half characters included. -/
theorem skip_spelling (h : IsSpelling cs) (rest : List Char) : skip (cs ++ '"' :: rest) = .ok rest := by
  have hRun : ∃ text, run false .plain (cs ++ '"' :: rest) = .ok (text, rest) := by
    induction h with
    | nil => exact ⟨[], run_quote⟩
    | plain hPlain _ ih =>
      obtain ⟨text, hMore⟩ := ih
      exact ⟨_, (run_plain hPlain).trans (resume_eq_ok_iff.mpr ⟨text, hMore, rfl⟩)⟩
    | short hShort _ ih =>
      obtain ⟨text, hMore⟩ := ih
      exact ⟨_, (run_short hShort).trans (resume_eq_ok_iff.mpr ⟨text, hMore, rfl⟩)⟩
    | unit hUnit _ ih =>
      obtain ⟨text, hMore⟩ := ih
      rw [List.cons_append, List.cons_append, List.append_assoc]
      exact ⟨_, (run_unit hUnit).trans (resume_eq_ok_iff.mpr ⟨text, hMore, rfl⟩)⟩
  obtain ⟨text, hRun⟩ := hRun
  rw [skip, hRun]
  rfl

/-! ## Reading -/

theorem unitDone_strict_cases (hUnit : IsUnit digits n) :
    (IsHigh n ∧ unitDone true n = .go [] (.high n)) ∨
      (IsLow n ∧ unitDone true n = .fail .malformed) ∨
      ∃ d : Char, d.toNat = n ∧ unitDone true n = .go [d] .plain := by
  by_cases hHigh : IsHigh n
  · exact Or.inl ⟨hHigh, by simp [unitDone, isHigh_iff.mpr hHigh]⟩
  · by_cases hLow : IsLow n
    · exact Or.inr (Or.inl ⟨hLow, by simp [unitDone, isLow_iff.mpr hLow, isHigh_iff, hHigh]⟩)
    · refine Or.inr (Or.inr ⟨Char.ofNat n, toNat_ofNat_of_whole hUnit hHigh hLow, ?_⟩)
      simp [unitDone, isHigh_iff, hHigh, isLow_iff, hLow]

/-- Every spelling of a text is read as that text. -/
theorem read_of_spells (h : Spells cs text) (rest : List Char) :
    read (cs ++ '"' :: rest) = .ok (text, rest) := by
  rw [read]
  induction h with
  | nil => exact run_quote
  | plain hPlain _ ih => exact (run_plain hPlain).trans (resume_eq_ok_iff.mpr ⟨_, ih, rfl⟩)
  | short hShort _ ih => exact (run_short hShort).trans (resume_eq_ok_iff.mpr ⟨_, ih, rfl⟩)
  | @unit d digits cs text hUnit _ ih =>
    rw [List.cons_append, List.cons_append, List.append_assoc, run_unit hUnit]
    have hDone : unitDone true d.toNat = .go [d] .plain := by
      obtain ⟨hHigh, hLow⟩ := not_half d
      simp [unitDone, isHigh_iff, hHigh, isLow_iff, hLow]
    rw [hDone]
    exact resume_eq_ok_iff.mpr ⟨_, ih, rfl⟩
  | @pair d high low digits digits' cs text hUnit hUnit' hHigh hLow hChar _ ih =>
    have hSame : d = pairChar high low := Char.toNat_inj.mp (hChar.trans (toNat_pairChar hHigh hLow).symm)
    have hDone : unitDone true high = .go [] (.high high) := by
      simp [unitDone, isHigh_iff.mpr hHigh]
    have hDone' : lowDone high low = .go [d] .plain := by
      rw [lowDone, if_pos (isLow_iff.mpr hLow), hSame]
    simp only [List.cons_append, List.append_assoc]
    rw [run_unit hUnit, hDone, resume_silent, run_second hUnit', hDone']
    exact resume_eq_ok_iff.mpr ⟨_, ih, rfl⟩

/-- What is read after a high unit is a low unit first. -/
def SpellsSecond (high : Nat) (cs text : List Char) : Prop :=
  ∃ digits low more text', cs = '\\' :: 'u' :: (digits ++ more) ∧ IsUnit digits low ∧ IsLow low ∧
    text = pairChar high low :: text' ∧ Spells more text'

/-- What is read is spelled. A high unit is left behind without its second one, so both what is read where a
character may begin and what is read after such a unit are carried along. -/
theorem spells_of_read (h : IsSpelling cs) :
    (∀ text, run true .plain (cs ++ '"' :: rest) = .ok (text, rest') → Spells cs text) ∧
      ∀ high text, run true (.high high) (cs ++ '"' :: rest) = .ok (text, rest') →
        SpellsSecond high cs text := by
  -- after a high unit there must be a backslash
  have hOther : ∀ {high : Nat} {c : Char} {more text : List Char}, c ≠ '\\' →
      run true (.high high) (c :: more) ≠ .ok (text, rest') := by
    intro high c more text hNot hRun
    rw [run_cons, step, if_neg hNot] at hRun
    cases hRun
  induction h with
  | nil =>
    refine ⟨fun text hRun => ?_, fun high text hRun => absurd hRun (hOther (by decide))⟩
    cases hRun
    exact .nil
  | plain hPlain _ ih =>
    refine ⟨fun text hRun => ?_, fun high text hRun => absurd hRun (hOther hPlain.notBackslash)⟩
    obtain ⟨text', hMore, rfl⟩ := resume_eq_ok_iff.mp ((run_plain hPlain).symm.trans hRun)
    exact .plain hPlain (ih.1 text' hMore)
  | @short c d cs hShort _ ih =>
    refine ⟨fun text hRun => ?_, fun high text hRun => ?_⟩
    · obtain ⟨text', hMore, rfl⟩ := resume_eq_ok_iff.mp ((run_short hShort).symm.trans hRun)
      exact .short hShort (ih.1 text' hMore)
    · -- no short escape begins a unit
      have hNot : c ≠ 'u' := by
        rintro rfl
        exact not_mem_shortEscapes hShort
      rw [List.cons_append, run_cons] at hRun
      change resume true (.go [] (.highEscape high)) _ = _ at hRun
      rw [resume_silent, List.cons_append, run_cons, step, if_neg hNot] at hRun
      cases hRun
  | @unit digits cs n hUnit _ ih =>
    rw [List.cons_append, List.cons_append, List.append_assoc]
    refine ⟨fun text hRun => ?_, fun high text hRun => ?_⟩
    · rw [run_unit hUnit] at hRun
      -- a high unit, a low one where none may stand, or a character
      obtain ⟨hHigh, hDone⟩ | ⟨-, hDone⟩ | ⟨d, rfl, hDone⟩ := unitDone_strict_cases hUnit
      · rw [hDone, resume_silent] at hRun
        obtain ⟨digits', low, more, text', rfl, hUnit', hLow, rfl, hMore⟩ := ih.2 n text hRun
        exact .pair hUnit hUnit' hHigh hLow (toNat_pairChar hHigh hLow) hMore
      · rw [hDone] at hRun
        cases hRun
      · rw [hDone] at hRun
        obtain ⟨text', hMore, rfl⟩ := resume_eq_ok_iff.mp hRun
        exact .unit hUnit (ih.1 text' hMore)
    · rw [run_second hUnit, lowDone] at hRun
      split at hRun
      case isTrue hLow =>
        obtain ⟨text', hMore, rfl⟩ := resume_eq_ok_iff.mp hRun
        exact ⟨digits, n, cs, text', rfl, hUnit, isLow_iff.mp hLow, rfl, ih.1 text' hMore⟩
      case isFalse => cases hRun

/-- **A string is read exactly if it spells a text**, and then as that text and up to its end. -/
theorem read_eq_ok_iff (h : IsSpelling cs) :
    read (cs ++ '"' :: rest) = .ok (text, rest') ↔ Spells cs text ∧ rest' = rest := by
  constructor
  · intro hRead
    have hSpells := (spells_of_read h).1 text hRead
    rw [read_of_spells hSpells] at hRead
    cases hRead
    exact ⟨hSpells, rfl⟩
  · rintro ⟨hSpells, rfl⟩
    exact read_of_spells hSpells _

/-! ## Writing -/

/-- What a character is written as spells it. -/
theorem spells_escapeChar (c : Char) (hMore : Spells cs text) :
    Spells (escapeChar c ++ cs) (c :: text) := by
  unfold escapeChar
  split
  -- the characters with a short escape
  iterate 7 exact .short (by decide) hMore
  rename_i hQuote hBackslash _ _ _ _ _
  split
  case isTrue hControl =>
    have hUnit : IsUnit ['0', '0', Hex.lower (c.toNat / 16), Hex.lower (c.toNat % 16)]
        (((0 * 16 + 0) * 16 + c.toNat / 16) * 16 + c.toNat % 16) :=
      .digits rfl rfl (Hex.value?_lower (by omega)) (Hex.value?_lower (by omega))
    have hValue : ((0 * 16 + 0) * 16 + c.toNat / 16) * 16 + c.toNat % 16 = c.toNat := by omega
    rw [hValue] at hUnit
    exact .unit hUnit hMore
  case isFalse hPrinted => exact .plain ⟨hQuote, hBackslash, Nat.not_lt.mp hPrinted⟩ hMore

/-- **What a text is written as spells it.** -/
theorem spells_escaped (cs : List Char) : Spells (cs.flatMap escapeChar) cs := by
  induction cs with
  | nil => exact .nil
  | cons c cs ih =>
    rw [List.flatMap_cons]
    exact spells_escapeChar c ih

end Text

end Latch.Json
