import Latch.Proofs.Toml.Number
import Latch.Proofs.Toml.Quoted
import Latch.Text.Word

/-!
# Written lines are read back

An entry is written on one line, with a bare key, blanks around the sign, and the line end right
after the value; a header is written on a line of its own.

* `Toml.IsName` — a text that is a key without marks around it;
* `Toml.Reads` — a value is read from a text where that ends its line;
* `Toml.Spells` — a text that is made of lines and empty lines.

Main results:

* `line?_header`, `line?_entry` — one line is read back;
* `reads_boolean`, `reads_string`, `reads_nat` — so are the values of three kinds;
* `Spells.lines?` — a text is read as the lines that it is made of.
-/

namespace Latch.Toml

variable {cs rest name : List Char} {c : Char}

/-! ## Bare keys -/

/-- A text that is a key without marks around it. -/
def IsName (name : List Char) : Prop := name ≠ [] ∧ ∀ c ∈ name, isBareKey c = true

instance (name : List Char) : Decidable (IsName name) :=
  decidable_of_iff (name ≠ [] ∧ name.all isBareKey = true) (by simp [IsName])

theorem IsName.eq_cons (hName : IsName name) :
    ∃ first more, name = first :: more ∧ isBareKey first = true := by
  obtain ⟨hSome, hBare⟩ := hName
  cases name with
  | nil => exact absurd rfl hSome
  | cons first more => exact ⟨first, more, rfl, hBare first List.mem_cons_self⟩

/-- What cannot stand in a bare key does not start one. -/
theorem IsName.ne_cons (hName : IsName name) (hMark : isBareKey c = false) (after more : List Char) :
    name ++ after ≠ c :: more := by
  obtain ⟨first, tail, rfl, hFirst⟩ := hName.eq_cons
  intro hStart
  injection hStart with hHead
  rw [hHead, hMark] at hFirst
  cases hFirst

theorem isBareKey_of_isBlank (hBlank : isBlank c = true) : isBareKey c = false := by
  rw [isBlank, Bool.or_eq_true, decide_eq_true_eq, decide_eq_true_eq] at hBlank
  rcases hBlank with rfl | rfl <;> decide

theorem dropBlanks_eq_self (hStart : ∀ c more, isBlank c = true → cs ≠ c :: more) :
    dropBlanks cs = cs := by
  cases cs with
  | nil => rfl
  | cons c cs =>
    have hBlank : ¬ isBlank c = true := fun h => hStart c cs h rfl
    simp [dropBlanks, hBlank]

theorem IsName.dropBlanks_eq (hName : IsName name) (after : List Char) :
    dropBlanks (name ++ after) = name ++ after :=
  dropBlanks_eq_self fun _ more hBlank => hName.ne_cons (isBareKey_of_isBlank hBlank) after more

theorem part?_bare (hName : IsName name) (hStop : isBareKey c = false) (rest : List Char) :
    part? (name ++ c :: rest) = some (String.ofList name, c :: rest) := by
  -- a name that starts with a mark would be read up to the next one
  have hNotQuoted : Text.readLine? (name ++ c :: rest) = none := by
    rw [Text.readLine?] <;> exact fun more => hName.ne_cons (by decide) _ more
  obtain ⟨hSome, hBare⟩ := hName
  have hTake : (name ++ c :: rest).takeWhile isBareKey = name := by
    simp [List.takeWhile_append_of_pos hBare, hStop]
  have hDrop : (name ++ c :: rest).dropWhile isBareKey = c :: rest := by
    simp [List.dropWhile_append_of_pos hBare, hStop]
  simp only [part?, hNotQuoted, hTake, hDrop]

/-- A bare key is read with the blanks after it, unless a dot follows. -/
theorem key?_bare (hName : IsName name) (hStop : isBareKey c = false) {after : List Char}
    (hAfter : dropBlanks (c :: rest) = after) (hDot : ∀ more, after ≠ '.' :: more) :
    key? (name ++ c :: rest) = some ([String.ofList name], after) := by
  rw [key?, depthLimit, parts?, hName.dropBlanks_eq, part?_bare hName hStop]
  simp only [Option.bind_eq_bind, Option.bind_some, hAfter]
  rfl

/-! ## Lines -/

theorem lineEnd?_newline (rest : List Char) : lineEnd? ('\n' :: rest) = some rest := rfl

theorem line?_header (hName : IsName name) (rest : List Char) :
    line? ('[' :: (name ++ ']' :: '\n' :: rest)) = some (.header [String.ofList name], rest) := by
  have hKey : key? (name ++ ']' :: '\n' :: rest) = some ([String.ofList name], ']' :: '\n' :: rest) :=
    key?_bare hName (by decide) rfl (fun more h => by cases h)
  have hHeader : header? (name ++ ']' :: '\n' :: rest) =
      some (.header [String.ofList name], '\n' :: rest) := by
    rw [header?]
    · simp [hKey, mark?]
    · exact fun more => hName.ne_cons (by decide) _ more
  simp [line?, hHeader, lineEnd?_newline]

/-- A value is read from a text where that ends its line. -/
structure Reads (text : List Char) (value : Value) : Prop where
  noBlank : ∀ c more, isBlank c = true → ∀ rest, text ++ '\n' :: rest ≠ c :: more
  read : ∀ rest, value? depthLimit (text ++ '\n' :: rest) = some (value, '\n' :: rest)

theorem line?_entry {text : List Char} {value : Value} (hName : IsName name)
    (hValue : Reads text value) (rest : List Char) :
    line? (name ++ ' ' :: '=' :: ' ' :: (text ++ '\n' :: rest)) =
      some (.entry [String.ofList name] value, rest) := by
  have hKey : key? (name ++ ' ' :: '=' :: ' ' :: (text ++ '\n' :: rest)) =
      some ([String.ofList name], '=' :: ' ' :: (text ++ '\n' :: rest)) :=
    key?_bare hName (by decide) rfl (fun more h => by cases h)
  have hBlank : dropBlanks (' ' :: (text ++ '\n' :: rest)) = text ++ '\n' :: rest :=
    dropBlanks_eq_self fun c more h => hValue.noBlank c more h rest
  have hEntry : entry? (value? depthLimit) (name ++ ' ' :: '=' :: ' ' :: (text ++ '\n' :: rest)) =
      some (([String.ofList name], value), '\n' :: rest) := by
    unfold entry?
    simp only [hKey, mark?, hBlank, hValue.read rest, if_pos, Option.bind_eq_bind,
      Option.bind_some]
    rfl
  rw [line?]
  · simp [hEntry, lineEnd?_newline]
  · exact fun more => hName.ne_cons (by decide) _ more

/-! ## Values -/

/-- What starts neither an array nor a braced table is a value that holds no other values. -/
theorem reads_of_scalar {text : List Char} {value : Value} {first : Char} {more : List Char}
    (hText : text = first :: more) (hBlank : isBlank first = false) (hArray : first ≠ '[')
    (hBraced : first ≠ '\x7b')
    (hRead : ∀ rest, scalar? (text ++ '\n' :: rest) = some (value, '\n' :: rest)) :
    Reads text value := by
  refine ⟨fun c cs hStart rest hEq => ?_, fun rest => ?_⟩
  · rw [hText] at hEq
    injection hEq with hHead
    rw [hHead, hStart] at hBlank
    cases hBlank
  · rw [← hRead rest, hText, depthLimit, value?]
    · simpa using hArray
    · simpa using hBraced

theorem reads_boolean (b : Bool) : Reads (boolText b).toList (.boolean b) := by
  cases b with
  | false => exact reads_of_scalar rfl rfl (by decide) (by decide) fun _ => rfl
  | true => exact reads_of_scalar rfl rfl (by decide) (by decide) fun _ => rfl

theorem reads_nat {n : Nat} (hFits : n ≤ 9223372036854775807) :
    Reads (Decimal.nat n) (.integer n) := by
  obtain ⟨first, more, hNat, -⟩ := Decimal.nat_eq_cons n
  have hFirst : Decimal.isDigit first = true :=
    Decimal.isDigit_of_mem_nat (hNat ▸ List.mem_cons_self)
  have hBlank : isBlank first = false := by
    rw [isBlank, Bool.or_eq_false_iff, decide_eq_false_iff_not, decide_eq_false_iff_not]
    exact ⟨Decimal.ne_of_isDigit hFirst (by decide), Decimal.ne_of_isDigit hFirst (by decide)⟩
  exact reads_of_scalar hNat hBlank (Decimal.ne_of_isDigit hFirst (by decide))
    (Decimal.ne_of_isDigit hFirst (by decide)) (scalar?_nat hFits)

/-- A written text starts with one of the two marks. -/
theorem Quoted.quote_eq_cons (s : List Char) :
    ∃ first more, quote s = first :: more ∧ (first = '"' ∨ first = '\'') := by
  unfold quote
  split
  · exact ⟨'"', _, rfl, Or.inl rfl⟩
  · exact ⟨'\'', _, rfl, Or.inr rfl⟩
  · exact ⟨'"', _, rfl, Or.inl rfl⟩
  · exact ⟨'\'', _, rfl, Or.inr rfl⟩

theorem reads_quote (s : List Char) : Reads (Quoted.quote s) (.string (String.ofList s)) := by
  obtain ⟨first, more, hQuote, hMark⟩ := Quoted.quote_eq_cons s
  have hScalar : ∀ rest, scalar? (Quoted.quote s ++ '\n' :: rest) =
      some (.string (String.ofList s), '\n' :: rest) := by
    intro rest
    have hRead := Text.read?_quote (c := '\n') s rest (by decide) (by decide)
    rw [hQuote, List.cons_append] at hRead ⊢
    rcases hMark with rfl | rfl <;> simp [scalar?, hRead]
  rcases hMark with rfl | rfl <;>
    exact reads_of_scalar hQuote rfl (by decide) (by decide) hScalar

/-! ## Texts -/

/-- Neither a blank nor a comment nor a line end comes first. -/
def StartsLine (cs : List Char) : Prop :=
  ∃ first more, cs = first :: more ∧
    isBlank first = false ∧ first ≠ '#' ∧ first ≠ '\n' ∧ first ≠ '\r'

theorem IsName.startsLine (hName : IsName name) (after : List Char) : StartsLine (name ++ after) := by
  obtain ⟨first, more, rfl, hFirst⟩ := hName.eq_cons
  have hNot : ∀ d, isBareKey d = false → first ≠ d := by
    rintro d hMark rfl
    rw [hFirst] at hMark
    cases hMark
  refine ⟨first, more ++ after, rfl, ?_, hNot _ (by decide), hNot _ (by decide), hNot _ (by decide)⟩
  rw [← Bool.not_eq_true]
  exact fun hBlank => hNot first (isBareKey_of_isBlank hBlank) rfl

/-- A text that is made of lines and empty lines. -/
inductive Spells : List Char → List Line → Prop
  | nil : Spells [] []
  | empty {cs : List Char} {lines : List Line} (hRest : Spells cs lines) : Spells ('\n' :: cs) lines
  | line {cs rest : List Char} {line : Line} {lines : List Line}
      (hStart : StartsLine cs) (hLine : line? cs = some (line, rest))
      (hShorter : rest.length < cs.length) (hRest : Spells rest lines) : Spells cs (line :: lines)

/-- **A text is read as the lines that it is made of.** -/
theorem Spells.linesFrom? {lines : List Line} (h : Spells cs lines) {fuel : Nat}
    (hFuel : cs.length < fuel) : Toml.linesFrom? fuel cs = some lines := by
  -- each line takes at least one character, so there is fuel for all of them
  induction h generalizing fuel with
  | nil =>
    obtain ⟨fuel, rfl⟩ : ∃ n, fuel = n + 1 := ⟨fuel - 1, by omega⟩
    rfl
  | empty _ ih =>
    obtain ⟨fuel, rfl⟩ : ∃ n, fuel = n + 1 := ⟨fuel - 1, by omega⟩
    rw [List.length_cons] at hFuel
    exact ih (Nat.lt_of_succ_lt hFuel)
  | @line cs rest line lines hStart hLine hShorter _ ih =>
    obtain ⟨fuel, rfl⟩ : ∃ n, fuel = n + 1 := ⟨fuel - 1, by omega⟩
    have hRest : Toml.linesFrom? fuel rest = some lines := ih (by omega)
    obtain ⟨first, more, rfl, hBlank, hComment, hFeed, hCarriage⟩ := hStart
    -- there is nothing to drop in front of a line
    have hKept : dropLines (first :: more).length (first :: more) = first :: more := by
      simp [dropLines, dropBlanks, hBlank, hComment, newline?, hFeed, hCarriage]
    rw [Toml.linesFrom?, hKept]
    simp [hComment, hLine, hRest]

theorem Spells.lines? {lines : List Line} (h : Spells cs lines) : Toml.lines? cs = some lines :=
  h.linesFrom? (Nat.lt_succ_self _)

end Latch.Toml
