import Latch.Toml.Quoted

/-!
# Quoted texts are read back

Whatever a text contains, the form in which it is written is read as the same text. An escape is
read alike on one line and over several, so each kind of escape is looked at once. Over several
lines the reader keeps back the marks that it has just seen, because three of them would end the
text.

* `Text.Form.Reads` — a form takes an input and makes some characters of it, whatever follows;
* `Text.Escaping` — a form that knows escapes; `Quoted.Body` — what comes after the backslash of
  one;
* `Text.pending` — the state over several lines after some marks in a row.

Main results:

* `Quoted.escapeChar_cases` — a character stands for itself, or for an escape;
* `Text.Escaping.reads` — an escape is read as the character that it stands for;
* `Text.run_basic`, `Text.run_literal`, `Text.run_multilineBasic`, `Text.run_multilineLiteral` —
  each form is read back;
* `Text.read?_quote` — so is the form that is chosen.
-/

namespace Latch.Toml

/-! ## Characters -/

namespace Quoted

variable {c : Char}

/-- What is neither a control character nor a line feed can stand for itself. -/
theorem isPlain_of_not_control (hControl : isControl c = false) (hLine : c ≠ '\n') :
    isPlain c = true := by
  simp only [isControl, Bool.or_eq_false_iff, Bool.and_eq_false_iff, decide_eq_false_iff_not,
    Decidable.not_not] at hControl
  simp only [isPlain, Bool.or_eq_true, Bool.and_eq_true, decide_eq_true_eq]
  obtain ⟨hLow, hHigh⟩ := hControl
  by_cases hTab : c = '\t'
  · exact Or.inl hTab
  · -- only the tab and the line feed lie below the blank
    refine Or.inr ⟨?_, hHigh⟩
    rcases hLow with (hLow | hTab') | hLine'
    · exact Nat.le_of_not_lt hLow
    · exact absurd hTab' hTab
    · exact absurd hLine' hLine

theorem ne_carriage_of_not_control (hControl : isControl c = false) : c ≠ '\r' := by
  rintro rfl
  exact absurd hControl (by decide)

/-- What comes after the backslash of an escape for a character. -/
inductive Body : Char → List Char → Prop
  | mark : Body '"' ['"']
  | letter {c letter : Char} (hLetter : letter? c = some letter) : Body c [letter]
  | code {c : Char} (hControl : isControl c = true) :
      Body c ['u', '0', '0', Hex.upper (c.toNat / 16), Hex.upper (c.toNat % 16)]

/-- A character that is no mark stands for itself, or for an escape. -/
theorem escapeChar_cases (multiline : Bool) (hMark : c ≠ '"') :
    (escapeChar multiline c = [c] ∧ (multiline = true ∧ c = '\n' ∨
      isPlain c = true ∧ c ≠ '"' ∧ c ≠ '\\' ∧ c ≠ '\n' ∧ c ≠ '\r')) ∨
    ∃ body, escapeChar multiline c = '\\' :: body ∧ Body c body := by
  unfold escapeChar
  by_cases hLine : multiline = true ∧ c = '\n'
  · exact Or.inl ⟨by simp [hLine], Or.inl hLine⟩
  · have hNot : (multiline && decide (c = '\n')) = false := by simpa using hLine
    rw [hNot]
    cases hLetter : letter? c with
    | some letter => exact Or.inr ⟨[letter], rfl, .letter hLetter⟩
    | none =>
      by_cases hControl : isControl c = true
      · exact Or.inr ⟨_, by simp [hControl, code], .code hControl⟩
      · rw [Bool.not_eq_true] at hControl
        -- characters that have a letter do not come here
        have hOwn : c ≠ '\\' ∧ c ≠ '\n' ∧ c ≠ '\r' := by
          refine ⟨?_, ?_, ?_⟩ <;> rintro rfl <;> cases hLetter
        refine Or.inl ⟨by simp [hControl], Or.inr ⟨?_, hMark, hOwn⟩⟩
        exact isPlain_of_not_control hControl hOwn.2.1

theorem letter?_cases {letter : Char} (h : letter? c = some letter) :
    Text.escaped? letter = some c ∧ isBlank letter = false ∧ letter ≠ '\n' ∧ letter ≠ '\r' := by
  unfold letter? at h
  split at h <;> cases h <;> decide

end Quoted

namespace Text

open Quoted (Body)

/-! ## What a form makes of an input -/

section Reading

variable {σ : Type} {form : Form σ} {a b d : σ} {input more out out' : List Char} {c : Char}

/-- From one state to another a form makes some characters of an input, whatever follows. -/
def Form.Reads (form : Form σ) (a : σ) (input out : List Char) (b : σ) : Prop :=
  ∀ rest, form.run a (input ++ rest) = (form.run b rest).map fun r => (out ++ r.1, r.2)

theorem Form.Reads.nil (form : Form σ) (a : σ) : form.Reads a [] [] a := by
  intro rest
  simp

theorem Form.Reads.trans (h : form.Reads a input out b) (h' : form.Reads b more out' d) :
    form.Reads a (input ++ more) (out ++ out') d := by
  intro rest
  rw [List.append_assoc, h, h', Option.map_map]
  refine congrArg (Option.map · _) (funext fun r => ?_)
  simp

theorem Form.reads_go (h : form.step a c = .go out b) : form.Reads a [c] out b := by
  intro rest
  rw [List.singleton_append, Form.run, h]

/-! ## Escapes -/

/-- A form that knows escapes, and what its states are called. -/
structure Escaping (form : Form σ) (plain escape : σ) (code : Nat → Nat → σ) : Prop where
  atEscape : ∀ c, isBlank c = false → c ≠ '\n' → c ≠ '\r' →
    form.step escape c = escapeStep plain code c
  atCode : ∀ left value c, form.step (code left value) c = codeStep plain code left value c

theorem escaping_basic : Escaping basic .plain .escape .code :=
  ⟨fun _ _ _ _ => rfl, fun _ _ _ => rfl⟩

theorem escaping_multiline (mark : Char) (hasEscapes : Bool) :
    Escaping (multiline mark hasEscapes) .plain .escape .code := by
  refine ⟨fun c hBlank hLine hCarriage => ?_, fun _ _ _ => rfl⟩
  simp [multiline, hBlank, hLine, hCarriage]

variable {plain escape : σ} {code : Nat → Nat → σ}

theorem codeStep_digit {left value digit : Nat} (hDigit : digit < 16) (hLeft : 1 < left) :
    codeStep plain code left value (Hex.upper digit) =
      .go [] (code (left - 1) (value * 16 + digit)) := by
  simp [codeStep, Hex.value?_upper hDigit, Nat.not_le.mpr hLeft]

/-- The last digit of a code ends the escape. -/
theorem codeStep_last {value digit : Nat} (hDigit : digit < 16)
    (hCode : value * 16 + digit = c.toNat) :
    codeStep plain code 1 value (Hex.upper digit) = .go [c] plain := by
  have hValid : c.toNat.isValidChar := c.valid
  simp [codeStep, Hex.value?_upper hDigit, hCode, charOfCode?, hValid]

/-- **An escape is read as the character that it stands for.** -/
theorem Escaping.reads {body : List Char} (h : Escaping form plain escape code) (hBody : Body c body) :
    form.Reads escape body [c] plain := by
  cases hBody with
  | mark => exact Form.reads_go (h.atEscape '"' rfl (by decide) (by decide))
  | letter hLetter =>
    obtain ⟨hEscaped, hBlank, hLine, hCarriage⟩ := Quoted.letter?_cases hLetter
    refine Form.reads_go ?_
    rw [h.atEscape _ hBlank hLine hCarriage, escapeStep, hEscaped]
  | code hControl =>
    -- a control character has a code of two digits, which two zeros precede
    have hSmall : c.toNat < 256 := by
      simp only [Quoted.isControl, Bool.or_eq_true, Bool.and_eq_true, decide_eq_true_eq] at hControl
      omega
    have hHigh : c.toNat / 16 < 16 := by omega
    have hLow : c.toNat % 16 < 16 := Nat.mod_lt _ (by decide)
    have hFirst : form.Reads escape ['u'] [] (code 4 0) :=
      Form.reads_go (h.atEscape 'u' rfl (by decide) (by decide))
    have hZeros : form.Reads (code 4 0) ['0', '0'] [] (code 2 0) := by
      have hZero : ∀ left, 1 < left →
          codeStep plain code left 0 '0' = .go [] (code (left - 1) 0) :=
        fun left hLeft => codeStep_digit (by decide : 0 < 16) hLeft
      exact (Form.reads_go ((h.atCode 4 0 '0').trans (hZero 4 (by decide)))).trans
        (Form.reads_go ((h.atCode 3 0 '0').trans (hZero 3 (by decide))))
    have hDigit : form.Reads (code 2 0) [Hex.upper (c.toNat / 16)] [] (code 1 (c.toNat / 16)) := by
      refine Form.reads_go ((h.atCode _ _ _).trans ?_)
      rw [codeStep_digit hHigh (by decide), Nat.zero_mul, Nat.zero_add]
    have hLast : form.Reads (code 1 (c.toNat / 16)) [Hex.upper (c.toNat % 16)] [c] plain :=
      Form.reads_go ((h.atCode _ _ _).trans (codeStep_last hLow (by omega)))
    exact hFirst.trans (hZeros.trans (hDigit.trans hLast))

end Reading

/-! ## One line -/

section OneLine

variable {c : Char}

theorem basic_reads_escape {body : List Char} (hBody : Body c body) :
    basic.Reads .plain ('\\' :: body) [c] .plain := by
  have hStart : basic.Reads .plain ['\\'] [] .escape := Form.reads_go rfl
  exact hStart.trans (escaping_basic.reads hBody)

theorem basic_reads_escapeChar (hMark : c ≠ '"') :
    basic.Reads .plain (Quoted.escapeChar false c) [c] .plain := by
  rcases Quoted.escapeChar_cases false hMark with ⟨hSelf, hOwn⟩ | ⟨body, hBody, hChar⟩
  · obtain ⟨hFalse, -⟩ | ⟨hPlain, -, hSlash, -⟩ := hOwn
    · cases hFalse
    · rw [hSelf]
      exact Form.reads_go (by simp [basic, hMark, hSlash, hPlain])
  · rw [hBody]
    exact basic_reads_escape hChar

theorem basic_reads (s : List Char) (row : Nat) :
    basic.Reads .plain (Quoted.escape false row s) s .plain := by
  -- every mark is escaped on one line, however many of them have just been written
  induction s generalizing row with
  | nil => exact Form.Reads.nil _ _
  | cons c s ih =>
    by_cases hMark : c = '"'
    · subst hMark
      exact (basic_reads_escape .mark).trans (ih 0)
    · rw [Quoted.escape, if_neg hMark]
      exact (basic_reads_escapeChar hMark).trans (ih 0)

theorem run_basic (s rest : List Char) :
    basic.run .plain (Quoted.escape false 0 s ++ '"' :: rest) = some (s, rest) := by
  rw [basic_reads s 0]
  simp [Form.run, basic]

theorem literal_reads {s : List Char} (hPlain : ∀ c ∈ s, isPlain c = true) (hMark : '\'' ∉ s) :
    literal.Reads () s s () := by
  induction s with
  | nil => exact Form.Reads.nil _ _
  | cons c s ih =>
    obtain ⟨hHead, hTail⟩ := List.forall_mem_cons.mp hPlain
    have hNe : c ≠ '\'' := fun h => hMark (h ▸ List.mem_cons_self)
    have hFirst : literal.Reads () [c] [c] () := Form.reads_go (by simp [literal, hNe, hHead])
    exact hFirst.trans (ih hTail fun h => hMark (List.mem_cons_of_mem _ h))

theorem run_literal {s : List Char} (hPlain : ∀ c ∈ s, isPlain c = true) (hMark : '\'' ∉ s)
    (rest : List Char) : literal.run () (s ++ '\'' :: rest) = some (s, rest) := by
  rw [literal_reads hPlain hMark]
  simp [Form.run, literal]

end OneLine

/-! ## Several lines -/

/-- The state after some marks in a row. -/
def pending : Nat → MultilineState
  | 0 => .plain
  | row + 1 => .marks (row + 1)

section SeveralLines

variable {mark c : Char} {hasEscapes : Bool} {row : Nat}

/-- One or two marks are kept back. -/
theorem multiline_reads_mark (hRow : row < 2) :
    (multiline mark hasEscapes).Reads (pending row) [mark] [] (pending (row + 1)) := by
  refine Form.reads_go ?_
  match row, hRow with
  | 0, _ => simp [multiline, pending, contentStep]
  | 1, _ => simp [multiline, pending, marksStep]

/-- What comes next brings out the marks that were kept back. -/
theorem step_pending (hRow : row ≤ 2) (hMark : c ≠ mark) :
    (multiline mark hasEscapes).step (pending row) c =
      contentStep mark hasEscapes (List.replicate row mark) c := by
  match row, hRow with
  | 0, _ => rfl
  | 1, _ => simp [multiline, pending, marksStep, hMark]
  | 2, _ => simp [multiline, pending, marksStep, hMark]

/-- A character that stands for itself. -/
theorem multiline_reads_self (hRow : row ≤ 2) (hMark : c ≠ mark)
    (hSlash : hasEscapes = true → c ≠ '\\')
    (hOwn : c = '\n' ∨ isPlain c = true ∧ c ≠ '\r') :
    (multiline mark hasEscapes).Reads (pending row) [c] (List.replicate row mark ++ [c])
      (pending 0) := by
  refine Form.reads_go ?_
  rw [step_pending hRow hMark, contentStep, if_neg hMark]
  by_cases hLine : c = '\n'
  · simp [hLine, pending]
  · obtain ⟨hPlain, hCarriage⟩ := hOwn.resolve_left hLine
    have hNoEscape : (hasEscapes && decide (c = '\\')) = false := by
      cases hasEscapes with
      | false => rfl
      | true => simpa using hSlash rfl
    simp [hLine, hCarriage, hNoEscape, hPlain, pending]

/-- The closing marks end the text, whatever marks were kept back. -/
theorem run_closing (hRow : row ≤ 2) (hNext : c ≠ mark) (rest : List Char) :
    (multiline mark hasEscapes).run (pending row) (mark :: mark :: mark :: c :: rest) =
      some (List.replicate row mark, c :: rest) := by
  -- three marks close the text before the next character, and five close it at once
  match row, hRow with
  | 0, _ => simp [Form.run, multiline, pending, contentStep, marksStep, hNext]
  | 1, _ => simp [Form.run, multiline, pending, marksStep, hNext]
  | 2, _ => simp [Form.run, multiline, pending, marksStep]

/-! ### With escapes -/

theorem multilineBasic_reads_escape {body : List Char} (hRow : row ≤ 2) (hBody : Body c body) :
    multilineBasic.Reads (pending row) ('\\' :: body) (List.replicate row '"' ++ [c])
      (pending 0) := by
  have hStart : multilineBasic.Reads (pending row) ['\\'] (List.replicate row '"') .escape :=
    Form.reads_go ((step_pending hRow (by decide)).trans (by simp [contentStep]))
  exact hStart.trans ((escaping_multiline '"' true).reads hBody)

theorem multilineBasic_reads_escapeChar (hRow : row ≤ 2) (hMark : c ≠ '"') :
    multilineBasic.Reads (pending row) (Quoted.escapeChar true c) (List.replicate row '"' ++ [c])
      (pending 0) := by
  rcases Quoted.escapeChar_cases true hMark with ⟨hSelf, hOwn⟩ | ⟨body, hBody, hChar⟩
  · rw [hSelf]
    rcases hOwn with ⟨-, rfl⟩ | ⟨hPlain, -, hSlash, -, hCarriage⟩
    · exact multiline_reads_self hRow hMark (fun _ => by decide) (Or.inl rfl)
    · exact multiline_reads_self hRow hMark (fun _ => hSlash) (Or.inr ⟨hPlain, hCarriage⟩)
  · rw [hBody]
    exact multilineBasic_reads_escape hRow hChar

/-- **Over several lines a text with escapes is read back**, also where its last characters are
marks. -/
theorem run_multilineBasic (s : List Char) (hRow : row ≤ 2) (hNext : c ≠ '"') (rest : List Char) :
    multilineBasic.run (pending row)
        (Quoted.escape true row s ++ '"' :: '"' :: '"' :: c :: rest) =
      some (List.replicate row '"' ++ s, c :: rest) := by
  -- the marks kept back are as many as those that the writer has just let stand for themselves
  induction s generalizing row with
  | nil =>
    rw [Quoted.escape, List.nil_append, List.append_nil]
    exact run_closing hRow hNext rest
  | cons d s ih =>
    by_cases hMark : d = '"'
    · subst hMark
      by_cases hFew : row < 2
      · -- the mark stands for itself and is kept back
        have hEscape :
            Quoted.escape true row ('"' :: s) = ['"'] ++ Quoted.escape true (row + 1) s := by
          simp [Quoted.escape, hFew]
        rw [hEscape, List.append_assoc, multilineBasic, multiline_reads_mark hFew, ← multilineBasic,
          ih hFew]
        simp [List.replicate_succ']
      · -- the third mark in a row is escaped, which brings out the two before it
        have hEscape :
            Quoted.escape true row ('"' :: s) = ['\\', '"'] ++ Quoted.escape true 0 s := by
          simp [Quoted.escape, hFew]
        rw [hEscape, List.append_assoc, multilineBasic_reads_escape hRow .mark, ih (Nat.zero_le 2)]
        simp
    · rw [Quoted.escape, if_neg hMark, List.append_assoc, multilineBasic_reads_escapeChar hRow hMark,
        ih (Nat.zero_le 2)]
      simp

/-! ### Without escapes -/

/-- The row with which a text starts is not longer than the longest one. -/
theorem le_longestRow (mark : Char) (row : Nat) (s : List Char) :
    row ≤ Quoted.longestRow mark row s := by
  induction s generalizing row with
  | nil => exact Nat.le_refl row
  | cons c s ih =>
    rw [Quoted.longestRow]
    split
    · exact Nat.le_of_succ_le (ih (row + 1))
    · exact Nat.le_max_left ..

theorem run_multilineLiteral {s : List Char} (hControl : ∀ d ∈ s, Quoted.isControl d = false)
    (hRow : Quoted.longestRow '\'' row s ≤ 2) (hNext : c ≠ '\'') (rest : List Char) :
    multilineLiteral.run (pending row) (s ++ '\'' :: '\'' :: '\'' :: c :: rest) =
      some (List.replicate row '\'' ++ s, c :: rest) := by
  -- no row of the text is long enough to close it
  have hNow : row ≤ 2 := Nat.le_trans (le_longestRow '\'' row s) hRow
  induction s generalizing row with
  | nil =>
    rw [List.nil_append, List.append_nil]
    exact run_closing hNow hNext rest
  | cons d s ih =>
    obtain ⟨hHead, hTail⟩ := List.forall_mem_cons.mp hControl
    rw [← List.singleton_append, List.append_assoc, multilineLiteral]
    by_cases hMark : d = '\''
    · rw [Quoted.longestRow, if_pos hMark] at hRow
      have hMore : row + 1 ≤ 2 := Nat.le_trans (le_longestRow '\'' (row + 1) s) hRow
      rw [hMark, multiline_reads_mark hMore, ← multilineLiteral, ih hTail hRow hMore]
      simp [List.replicate_succ']
    · rw [Quoted.longestRow, if_neg hMark] at hRow
      have hRest : Quoted.longestRow '\'' 0 s ≤ 2 := Nat.le_trans (Nat.le_max_right ..) hRow
      have hOwn : d = '\n' ∨ isPlain d = true ∧ d ≠ '\r' := by
        by_cases hLine : d = '\n'
        · exact Or.inl hLine
        · exact Or.inr ⟨Quoted.isPlain_of_not_control hHead hLine,
            Quoted.ne_carriage_of_not_control hHead⟩
      rw [multiline_reads_self hNow hMark (fun h => by cases h) hOwn, ← multilineLiteral,
        ih hTail hRest (Nat.zero_le 2)]
      simp

end SeveralLines

end Text

/-! ## The form that is chosen -/

namespace Quoted

variable {s : List Char}

theorem Style.of_literal (h : Style.of s = .literal) :
    (∀ c ∈ s, isControl c = false) ∧ '\n' ∉ s ∧ '\'' ∉ s := by
  dsimp only [Style.of] at h
  split at h
  · cases h
  · split at h
    case isTrue hLiteral => simpa [and_assoc] using hLiteral
    case isFalse =>
      iterate 2 (split at h; cases h)
      split at h <;> cases h

theorem Style.of_multilineLiteral (h : Style.of s = .multilineLiteral) :
    (∀ c ∈ s, isControl c = false) ∧ longestRow '\'' 0 s ≤ 2 := by
  -- the three styles that come before it are others
  dsimp only [Style.of] at h
  iterate 3 (split at h; cases h)
  split at h
  case isTrue hLiteral => simpa using hLiteral
  case isFalse => split at h <;> cases h

/-- How a text with escapes begins. -/
theorem escape_cons (multiline : Bool) (row : Nat) (c : Char) (s : List Char) :
    ∃ first tail, escape multiline row (c :: s) = first :: tail ∧
      (first = '\\' ∨ first = c ∧ c ≠ '\r' ∧ (multiline = false → c ≠ '"')) := by
  rw [escape]
  by_cases hMark : c = '"'
  · subst hMark
    rw [if_pos rfl]
    split
    case isTrue hFew =>
      refine ⟨_, _, rfl, Or.inr ⟨rfl, by decide, fun hLine => ?_⟩⟩
      simp [hLine] at hFew
    case isFalse => exact ⟨_, _, rfl, Or.inl rfl⟩
  · rw [if_neg hMark]
    rcases escapeChar_cases multiline hMark with ⟨hSelf, hOwn⟩ | ⟨body, hBody, -⟩
    · refine ⟨c, _, by rw [hSelf]; rfl, Or.inr ⟨rfl, ?_, fun _ => hMark⟩⟩
      rcases hOwn with ⟨-, rfl⟩ | ⟨-, -, -, -, hCarriage⟩
      · decide
      · exact hCarriage
    · exact ⟨'\\', _, by rw [hBody]; rfl, Or.inl rfl⟩

/-- A text without line feeds does not start with a line end, whether it is written with escapes or
without. -/
theorem starts_escape (more : List Char) (hLine : '\n' ∉ s) :
    (escape true 0 s ++ '"' :: more).head? ≠ some '\n' ∧
      (escape true 0 s ++ '"' :: more).head? ≠ some '\r' := by
  cases s with
  | nil => simp [escape]
  | cons c s =>
    obtain ⟨first, tail, hEscape, hFirst⟩ := escape_cons true 0 c s
    rw [hEscape]
    rcases hFirst with rfl | ⟨rfl, hCarriage, -⟩
    · simp
    · have hFeed : first ≠ '\n' := fun h => hLine (by simp [h])
      simp [hFeed, hCarriage]

theorem starts_raw (hControl : ∀ c ∈ s, isControl c = false) (more : List Char)
    (hLine : '\n' ∉ s) :
    (s ++ '\'' :: more).head? ≠ some '\n' ∧ (s ++ '\'' :: more).head? ≠ some '\r' := by
  cases s with
  | nil => simp
  | cons c s =>
    have hFeed : c ≠ '\n' := fun h => hLine (by simp [h])
    have hCarriage : c ≠ '\r' := ne_carriage_of_not_control (hControl c List.mem_cons_self)
    simp [hFeed, hCarriage]

end Quoted

namespace Text

open Quoted (Style lead)

variable {s rest : List Char} {c : Char}

/-- A line end that was put after the opening marks is dropped, and nothing else is. -/
theorem dropLineEnd_lead {body : List Char}
    (hBody : '\n' ∉ s → body.head? ≠ some '\n' ∧ body.head? ≠ some '\r') :
    dropLineEnd (lead s ++ body) = body := by
  unfold lead
  by_cases hLine : '\n' ∈ s
  · simp [hLine, dropLineEnd]
  · obtain ⟨hFeed, hCarriage⟩ := hBody hLine
    rw [if_neg (by simpa using hLine), List.nil_append]
    unfold dropLineEnd
    split
    · exact absurd rfl hFeed
    · exact absurd rfl hCarriage
    · rfl

theorem read?_basic (s rest : List Char) (hNext : c ≠ '"') :
    read? ('"' :: (Quoted.escape false 0 s ++ '"' :: c :: rest)) = some (s, c :: rest) := by
  -- the mark that opens the text is never the first of three
  have hOne : ∀ more, Quoted.escape false 0 s ++ '"' :: c :: rest ≠ '"' :: '"' :: more := by
    intro more hMore
    cases s with
    | nil =>
      injection hMore with _ hTail
      injection hTail with hHead
      exact hNext hHead
    | cons d s =>
      obtain ⟨first, tail, hEscape, hFirst⟩ := Quoted.escape_cons false 0 d s
      rw [hEscape] at hMore
      injection hMore with hMark
      subst hMark
      rcases hFirst with hSlash | ⟨rfl, -, hNot⟩
      · cases hSlash
      · exact hNot rfl rfl
  unfold read?
  split
  case h_1 more hMore => exact absurd (List.tail_eq_of_cons_eq hMore) (hOne more)
  case h_2 hMore => cases hMore
  case h_3 => exact run_basic s (c :: rest)

theorem read?_literal (hControl : ∀ d ∈ s, Quoted.isControl d = false) (hLine : '\n' ∉ s)
    (hMark : '\'' ∉ s) (hNext : c ≠ '\'') :
    read? ('\'' :: (s ++ '\'' :: c :: rest)) = some (s, c :: rest) := by
  -- a text without apostrophes does not start with one either
  have hOne : ∀ more, s ++ '\'' :: c :: rest ≠ '\'' :: '\'' :: more := by
    intro more hMore
    cases s with
    | nil =>
      injection hMore with _ hTail
      injection hTail with hHead
      exact hNext hHead
    | cons d s =>
      injection hMore with hHead
      exact hMark (hHead ▸ List.mem_cons_self)
  have hPlain : ∀ d ∈ s, isPlain d = true := fun d hd =>
    Quoted.isPlain_of_not_control (hControl d hd) fun h => hLine (h ▸ hd)
  unfold read?
  split
  case h_1 hMore => cases hMore
  case h_2 more hMore => exact absurd (List.tail_eq_of_cons_eq hMore) (hOne more)
  case h_3 => exact run_literal hPlain hMark (c :: rest)

/-- **A text is read back from the form that is chosen for it.** -/
theorem read?_quote (s rest : List Char) (hMark : c ≠ '"') (hApostrophe : c ≠ '\'') :
    read? (Quoted.quote s ++ c :: rest) = some (s, c :: rest) := by
  unfold Quoted.quote
  split
  case h_1 =>
    simpa using read?_basic s rest hMark
  case h_2 hStyle =>
    obtain ⟨hControl, hLine, hNone⟩ := Style.of_literal hStyle
    simpa using read?_literal hControl hLine hNone hApostrophe
  case h_3 =>
    -- no mark is pending when the text begins
    have hDrop := dropLineEnd_lead (Quoted.starts_escape (s := s) ('"' :: '"' :: c :: rest))
    have hRun : multilineBasic.run (pending 0) _ = some (s, c :: rest) :=
      run_multilineBasic s (Nat.zero_le 2) hMark rest
    simpa [read?, hDrop, pending] using hRun
  case h_4 hStyle =>
    obtain ⟨hControl, hRow⟩ := Style.of_multilineLiteral hStyle
    have hDrop := dropLineEnd_lead (Quoted.starts_raw hControl ('\'' :: '\'' :: c :: rest))
    have hRun : multilineLiteral.run (pending 0) _ = some (s, c :: rest) :=
      run_multilineLiteral hControl hRow hApostrophe rest
    simpa [read?, hDrop, pending] using hRun

end Text

end Latch.Toml
