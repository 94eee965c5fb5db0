import Latch.Proofs.Json.Numbers
import Latch.Proofs.Json.Strings
import Latch.Text.Word

/-!
# Well-formed JSON values

Which texts are JSON values: words, numbers and strings, and arrays and objects of any depth, with spaces
wherever they may stand. Whatever such a value holds, it is passed over just up to its end: neither too
little nor too much is taken, however deep it is nested.

* `Json.Derives` — the grammar of values, with a constructor for each rule;
* `Json.IsValue` — well-formed values;
* `Json.Passes` — the skipper gets through a text in so many rounds.

Main results:

* `Json.IsValue.starts` — the first character of a value tells of what kind it is;
* `Json.Derives.passes` — the skipper gets through every part of the grammar;
* `Json.skip_value` — a well-formed value is passed over just up to its end.
-/

namespace Latch.Json

variable {cs more rest space : List Char} {c : Char} {frames outer : List Frame}

/-! ## The grammar -/

/-- A string between its quotation marks. -/
def quoted (cs : List Char) : List Char := '"' :: (cs ++ ['"'])

def Frame.opening : Frame → Char
  | array => '['
  | object => '\x7b'

/-- What the grammar speaks of. -/
inductive Part where
  | value
  /-- A value in an array or a member of an object, with the spaces around it. -/
  | item (frame : Frame)
  /-- One item or more, with commas between them. -/
  | items (frame : Frame)

/-- **The grammar of values.** -/
inductive Derives : Part → List Char → Prop
  | null : Derives .value "null".toList
  | boolean (b : Bool) : Derives .value (boolText b).toList
  | number {cs : List Char} (hNumber : IsNumber cs) : Derives .value cs
  | text {cs : List Char} (hText : Text.IsSpelling cs) : Derives .value (quoted cs)
  | empty {frame : Frame} {space : List Char} (hSpace : Spaces space) :
      Derives .value (frame.opening :: (space ++ [frame.closing]))
  | filled {frame : Frame} {cs : List Char} (hItems : Derives (.items frame) cs) :
      Derives .value (frame.opening :: (cs ++ [frame.closing]))
  | element {before cs after : List Char} (hBefore : Spaces before) (hValue : Derives .value cs)
      (hAfter : Spaces after) : Derives (.item .array) (before ++ (cs ++ after))
  | member {before name beforeColon afterColon cs after : List Char} (hBefore : Spaces before)
      (hName : Text.IsSpelling name) (hBeforeColon : Spaces beforeColon) (hAfterColon : Spaces afterColon)
      (hValue : Derives .value cs) (hAfter : Spaces after) :
      Derives (.item .object)
        (before ++ (quoted name ++ (beforeColon ++ ':' :: (afterColon ++ (cs ++ after)))))
  | one {frame : Frame} {cs : List Char} (hItem : Derives (.item frame) cs) : Derives (.items frame) cs
  | more {frame : Frame} {cs rest : List Char} (hItem : Derives (.item frame) cs)
      (hMore : Derives (.items frame) rest) : Derives (.items frame) (cs ++ ',' :: rest)

abbrev IsValue (cs : List Char) : Prop := Derives .value cs

/-! ## The first character -/

/-- A value without its first character, which tells of what kind it is. -/
inductive StartsValue : Char → List Char → Prop
  | null : StartsValue 'n' "ull".toList
  | true : StartsValue 't' "rue".toList
  | false : StartsValue 'f' "alse".toList
  | number {c : Char} {more : List Char} (hStarts : startsNumber c = Bool.true)
      (hNumber : IsNumber (c :: more)) : StartsValue c more
  | text {cs : List Char} (hText : Text.IsSpelling cs) : StartsValue '"' (cs ++ ['"'])
  | frame (frame : Frame) (more : List Char) : StartsValue frame.opening more

theorem IsValue.starts (h : IsValue cs) : ∃ c more, cs = c :: more ∧ StartsValue c more := by
  cases h with
  | null => exact ⟨'n', _, rfl, .null⟩
  | boolean b =>
    cases b with
    | true => exact ⟨'t', _, rfl, .true⟩
    | false => exact ⟨'f', _, rfl, .false⟩
  | number hNumber =>
    obtain ⟨c, more, rfl, hStarts⟩ := hNumber.head
    exact ⟨c, more, rfl, .number hStarts hNumber⟩
  | text hText => exact ⟨'"', _, rfl, .text hText⟩
  | @empty frame space _ => exact ⟨frame.opening, _, rfl, .frame frame _⟩
  | @filled frame items _ => exact ⟨frame.opening, _, rfl, .frame frame _⟩

/-- No value starts with a space or with the end of an array or object. -/
theorem StartsValue.ne (h : StartsValue c more) :
    isSpace c = Bool.false ∧ ∀ opened : Frame, c ≠ opened.closing := by
  cases h with
  | null | true | false | text => exact ⟨rfl, fun frame => by cases frame <;> decide⟩
  | number hStarts =>
    have hNot : ∀ d, startsNumber d = Bool.false → c ≠ d := fun d => ne_of_startsNumber hStarts
    refine ⟨?_, fun frame => hNot _ (by cases frame <;> rfl)⟩
    simp [isSpace, hNot ' ' rfl, hNot '\n' rfl, hNot '\t' rfl, hNot '\r' rfl]
  | frame opened more => cases opened <;> exact ⟨rfl, fun frame => by cases frame <;> decide⟩

/-- What the first character of a value says of the rest of it. -/
structure ToldBy (c : Char) (more : List Char) : Prop where
  null : c = 'n' → more = "ull".toList
  true : c = 't' → more = "rue".toList
  false : c = 'f' → more = "alse".toList
  number : startsNumber c = Bool.true → IsNumber (c :: more)
  text : c = '"' → ∃ cs, Text.IsSpelling cs ∧ more = cs ++ ['"']

theorem StartsValue.told (h : StartsValue c more) : ToldBy c more := by
  cases h with
  | null => exact ⟨fun _ => rfl, by simp, by simp, nofun, by simp⟩
  | true => exact ⟨by simp, fun _ => rfl, by simp, nofun, by simp⟩
  | false => exact ⟨by simp, by simp, fun _ => rfl, nofun, by simp⟩
  | text hText => exact ⟨by simp, by simp, by simp, nofun, fun _ => ⟨_, hText, rfl⟩⟩
  | number hStarts hNumber =>
    have hNot : ∀ d, startsNumber d = Bool.false → c ≠ d := fun d => ne_of_startsNumber hStarts
    exact ⟨by simp [hNot 'n' rfl], by simp [hNot 't' rfl], by simp [hNot 'f' rfl], fun _ => hNumber,
      by simp [hNot '"' rfl]⟩
  | frame opened more => cases opened <;> exact ⟨by simp [Frame.opening], by simp [Frame.opening],
      by simp [Frame.opening], nofun, by simp [Frame.opening]⟩

/-- What starts with spaces and a character that does not end what it stands in. -/
def StartsItem (frame : Frame) (cs : List Char) : Prop :=
  ∃ space c more, cs = space ++ c :: more ∧ Spaces space ∧ isSpace c = false ∧ c ≠ frame.closing

theorem StartsItem.append {frame : Frame} (h : StartsItem frame cs) (rest : List Char) :
    StartsItem frame (cs ++ rest) := by
  obtain ⟨space, c, more, rfl, hStart⟩ := h
  exact ⟨space, c, more ++ rest, by simp, hStart⟩

theorem Derives.startsItem {frame : Frame} (h : Derives (.item frame) cs) : StartsItem frame cs := by
  cases h with
  | element hBefore hValue hAfter =>
    obtain ⟨c, more, rfl, hStarts⟩ := IsValue.starts hValue
    exact ⟨_, c, _, rfl, hBefore, hStarts.ne.1, hStarts.ne.2 .array⟩
  | member hBefore hName hBeforeColon hAfterColon hValue hAfter =>
    exact ⟨_, '"', _, rfl, hBefore, rfl, by decide⟩

theorem Derives.startsItems {frame : Frame} (h : Derives (.items frame) cs) : StartsItem frame cs := by
  cases h with
  | one hItem => exact hItem.startsItem
  | more hItem hMore => exact hItem.startsItem.append _

/-! ## One round -/

theorem opening_frame (frame : Frame) (rest : List Char) : opening frame.opening rest = .opens frame := by
  cases frame <;> rfl

theorem opening_text (hText : Text.IsSpelling cs) : opening '"' (cs ++ '"' :: rest) = .passed rest := by
  show Opening.ofRest (Text.skip (cs ++ '"' :: rest)) = _
  rw [Text.skip_spelling hText]
  rfl

theorem opening_number (hNumber : IsNumber (c :: more)) (hEnds : Ends rest) :
    opening c (more ++ rest) = .passed rest := by
  obtain ⟨d, more', hSame, hStarts⟩ := hNumber.head
  cases hSame
  have hNot : ∀ d, startsNumber d = false → c ≠ d := fun d => ne_of_startsNumber hStarts
  have hSkip := Number.skip_number hNumber hEnds
  rw [opening, if_neg (hNot '[' rfl), if_neg (hNot '\x7b' rfl), if_neg (hNot '"' rfl),
    if_neg (hNot 'n' rfl), if_neg (hNot 't' rfl), if_neg (hNot 'f' rfl)]
  by_cases hMinus : c = '-'
  · rw [if_pos hMinus] at hSkip ⊢
    rw [hSkip]
    rfl
  · have hDigit : Decimal.isDigit c = true := by simpa [startsNumber, hMinus] using hStarts
    rw [if_neg hMinus] at hSkip ⊢
    rw [if_pos hDigit, hSkip]
    rfl

variable {fuel : Nat}

/-- Spaces before a round make no difference to it. -/
theorem skipFrom_spaces {expect : Expect} (hSpace : Spaces space) (hOpen : expect ≠ .next ∨ frames ≠ []) :
    skipFrom fuel expect frames (space ++ rest) = skipFrom fuel expect frames rest := by
  cases fuel with
  | zero => rfl
  | succ fuel => cases expect <;> cases frames <;> simp_all [skipFrom, dropSpace_spaces]

/-- A round at a character that opens an array or an object. -/
theorem skipFrom_opens {frame : Frame} (hPlain : isSpace c = false)
    (hOpening : opening c rest = .opens frame) : skipFrom (fuel + 1) .value frames (c :: rest) =
      skipFrom fuel .firstOrEnd (frame :: frames) rest := by
  have hDrop : dropSpace (c :: rest) = c :: rest := dropSpace_append spaces_nil hPlain
  cases frames <;> simp [skipFrom, hDrop, hOpening]

/-- A round at the first character of a value that holds no others. -/
theorem skipFrom_passed {after : List Char} (hPlain : isSpace c = false)
    (hOpening : opening c rest = .passed after) : skipFrom (fuel + 1) .value frames (c :: rest) =
      skipFrom fuel .next frames after := by
  have hDrop : dropSpace (c :: rest) = c :: rest := dropSpace_append spaces_nil hPlain
  cases frames <;> simp [skipFrom, hDrop, hOpening]

theorem skipFrom_name (hName : Text.IsSpelling cs) :
    skipFrom (fuel + 1) .name frames (quoted cs ++ rest) = skipFrom fuel .colon frames rest := by
  have hText : quoted cs ++ rest = '"' :: (cs ++ '"' :: rest) := by simp [quoted]
  have hDrop : dropSpace ('"' :: (cs ++ '"' :: rest)) = '"' :: (cs ++ '"' :: rest) :=
    dropSpace_append spaces_nil rfl
  rw [hText, skipFrom, hDrop]
  · dsimp only
    rw [if_pos rfl, Text.skip_spelling hName]
  · exact fun hNext => nomatch hNext

theorem skipFrom_colon :
    skipFrom (fuel + 1) .colon frames (':' :: rest) = skipFrom fuel .value frames rest := by
  cases frames <;> rfl

theorem skipFrom_comma (frame : Frame) : skipFrom (fuel + 1) .next (frame :: outer) (',' :: rest) =
    skipFrom fuel frame.item (frame :: outer) rest := rfl

theorem skipFrom_close (frame : Frame) :
    skipFrom (fuel + 1) .next (frame :: outer) (frame.closing :: rest) = skipFrom fuel .next outer rest := by
  cases frame <;> rfl

theorem skipFrom_empty (frame : Frame) :
    skipFrom (fuel + 1) .firstOrEnd (frame :: outer) (frame.closing :: rest) =
      skipFrom fuel .next outer rest := by
  cases frame <;> rfl

theorem Frame.item_ne_next (frame : Frame) : frame.item ≠ .next := by
  cases frame <;> decide

/-- An array or object that does not end at once has a first item. -/
theorem skipFrom_first {frame : Frame} (h : StartsItem frame cs) :
    skipFrom (fuel + 1) .firstOrEnd (frame :: outer) (cs ++ rest) =
      skipFrom fuel frame.item (frame :: outer) (cs ++ rest) := by
  obtain ⟨space, c, more, rfl, hSpace, hPlain, hItem⟩ := h
  rw [List.append_assoc, List.cons_append, skipFrom_spaces hSpace (Or.inl frame.item_ne_next), skipFrom,
    dropSpace_append hSpace hPlain]
  · exact if_neg hItem
  · exact fun hNext => nomatch hNext

/-! ## Whole values -/

/-- In some rounds, at most two for each character, the skipper gets from what it expects before a text to
what may follow a value. -/
def Passes (expect : Expect) (frames : List Frame) (cs : List Char) : Prop :=
  ∃ rounds ≤ 2 * cs.length, ∀ fuel rest, Ends rest →
    skipFrom (fuel + rounds) expect frames (cs ++ rest) = skipFrom fuel .next frames rest

/-- The skipper gets through a part of the grammar, whatever arrays and objects are around it. -/
def Part.Passed : Part → List Char → Prop
  | value, cs => ∀ frames, Passes .value frames cs
  | item frame, cs | items frame, cs => ∀ outer, Passes frame.item (frame :: outer) cs

/-- A value that is passed over at once takes one round. -/
theorem passes_at_once (hPlain : isSpace c = false)
    (hOpening : ∀ rest, Ends rest → opening c (more ++ rest) = .passed rest) (frames : List Frame) :
    Passes .value frames (c :: more) := by
  refine ⟨1, ?_, fun fuel rest hEnds => ?_⟩
  · rw [List.length_cons]
    omega
  · rw [List.cons_append, skipFrom_passed hPlain (hOpening rest hEnds)]

theorem ends_comma : Ends (',' :: rest) := ends_cons rfl (by decide) rfl

theorem ends_closing (frame : Frame) : Ends (frame.closing :: rest) := by
  cases frame <;> exact ends_cons rfl (by decide) rfl

theorem skipFrom_opening (frame : Frame) : skipFrom (fuel + 1) .value frames (frame.opening :: rest) =
    skipFrom fuel .firstOrEnd (frame :: frames) rest := by
  have hPlain : isSpace frame.opening = false := by cases frame <;> rfl
  exact skipFrom_opens hPlain (opening_frame frame rest)

/-- **The skipper gets through every part of the grammar.** -/
theorem Derives.passes {part : Part} (h : Derives part cs) : part.Passed cs := by
  induction h with
  | null => exact passes_at_once rfl fun rest _ => rfl
  | boolean b =>
    cases b with
    | true => exact passes_at_once rfl fun rest _ => rfl
    | false => exact passes_at_once rfl fun rest _ => rfl
  | number hNumber =>
    obtain ⟨c, more, rfl, hStarts⟩ := hNumber.head
    exact passes_at_once (StartsValue.number hStarts hNumber).ne.1 fun rest => opening_number hNumber
  | text hText =>
    refine passes_at_once rfl fun rest _ => ?_
    rw [List.append_assoc]
    exact opening_text hText
  | @empty frame space hSpace =>
    intro frames
    -- one round to open it and one to close it
    refine ⟨2, ?_, fun fuel rest _ => ?_⟩
    · simp only [List.length_cons, List.length_append]
      omega
    · rw [List.cons_append, List.append_assoc, skipFrom_opening,
        skipFrom_spaces hSpace (Or.inl (by decide)), List.singleton_append, skipFrom_empty]
  | @filled frame cs hItems ih =>
    intro frames
    -- and one more between, which finds that it does not end at once
    obtain ⟨rounds, hRounds, hPass⟩ := ih frames
    refine ⟨rounds + 3, ?_, fun fuel rest _ => ?_⟩
    · simp only [List.length_cons, List.length_append]
      omega
    · have hFuel : fuel + (rounds + 3) = fuel + 1 + rounds + 1 + 1 := by omega
      rw [hFuel, List.cons_append, List.append_assoc, skipFrom_opening, skipFrom_first hItems.startsItems,
        List.singleton_append, hPass _ _ (ends_closing frame), skipFrom_close]
  | element hBefore hValue hAfter ih =>
    intro outer
    -- spaces take no round of their own: they go with what comes after them
    obtain ⟨rounds, hRounds, hPass⟩ := ih (.array :: outer)
    refine ⟨rounds, ?_, fun fuel rest hEnds => ?_⟩
    · simp only [List.length_append]
      omega
    · rw [List.append_assoc, List.append_assoc, skipFrom_spaces hBefore (Or.inl (by decide))]
      exact (hPass _ _ (hAfter.ends hEnds)).trans (skipFrom_spaces hAfter (Or.inr (List.cons_ne_nil _ _)))
  | @member before name beforeColon afterColon cs after hBefore hName hBeforeColon hAfterColon hValue
      hAfter ih =>
    intro outer
    -- one round for the name and one for the colon
    obtain ⟨rounds, hRounds, hPass⟩ := ih (.object :: outer)
    refine ⟨rounds + 2, ?_, fun fuel rest hEnds => ?_⟩
    · simp only [List.length_append, List.length_cons]
      omega
    · have hFuel : fuel + (rounds + 2) = fuel + rounds + 1 + 1 := by omega
      simp only [List.append_assoc, List.cons_append]
      rw [hFuel, skipFrom_spaces hBefore (Or.inl (by decide))]
      show skipFrom _ .name _ _ = _
      rw [skipFrom_name hName, skipFrom_spaces hBeforeColon (Or.inl (by decide)), skipFrom_colon,
        skipFrom_spaces hAfterColon (Or.inl (by decide)), hPass _ _ (hAfter.ends hEnds),
        skipFrom_spaces hAfter (Or.inr (List.cons_ne_nil _ _))]
  | one hItem ih => exact ih
  | @more frame cs rest hItem hMore ih ihMore =>
    intro outer
    -- one round for the comma, which also ends a number before it
    obtain ⟨rounds, hRounds, hPass⟩ := ih outer
    obtain ⟨rounds', hRounds', hPass'⟩ := ihMore outer
    refine ⟨rounds' + 1 + rounds, ?_, fun fuel rest hEnds => ?_⟩
    · simp only [List.length_append, List.length_cons]
      omega
    · have hFuel : fuel + (rounds' + 1 + rounds) = fuel + rounds' + 1 + rounds := by omega
      rw [hFuel, List.append_assoc, List.cons_append, hPass _ _ ends_comma, skipFrom_comma, hPass' _ _ hEnds]

/-- **A well-formed value is passed over just up to its end.** -/
theorem skip_value (hValue : IsValue cs) (hSpace : Spaces space) (hEnds : Ends rest) :
    skip (space ++ (cs ++ rest)) = .ok rest := by
  obtain ⟨rounds, hRounds, hPass⟩ := hValue.passes []
  -- there is a round left at the end, which finds that nothing is open
  have hFuel : ∃ fuel, 2 * (space ++ (cs ++ rest)).length + 2 = fuel + 1 + rounds := by
    refine ⟨2 * (space ++ (cs ++ rest)).length + 1 - rounds, ?_⟩
    simp only [List.length_append]
    omega
  obtain ⟨fuel, hFuel⟩ := hFuel
  rw [skip, hFuel, skipFrom_spaces hSpace (Or.inl (by decide)), hPass _ _ hEnds]
  rfl

/-! ## Written values -/

theorem quote_eq (s : String) : quote s = quoted (s.toList.flatMap escapeChar) := by
  simp [quote, quoted]

/-- An item may stand without spaces, -/
theorem derives_element (hValue : IsValue cs) : Derives (.item .array) cs := by
  have hItem := Derives.element spaces_nil hValue spaces_nil
  rwa [List.nil_append, List.append_nil] at hItem

/-- and so may a member. -/
theorem derives_member (name : String) (hValue : IsValue cs) :
    Derives (.item .object) (quote name ++ ':' :: cs) := by
  have hName := (Text.spells_escaped name.toList).isSpelling
  have hItem := Derives.member spaces_nil hName spaces_nil spaces_nil hValue spaces_nil
  rwa [← quote_eq, List.nil_append, List.nil_append, List.nil_append, List.append_nil] at hItem

mutual

/-- **Whatever is written without spaces is well-formed.** -/
theorem isValue_compact : (json : Json) → IsValue json.compact
  | .null => .null
  | .boolean b => .boolean b
  | .integer n => .number (isNumber_int n)
  | .text s => by
    rw [compact, quote_eq]
    exact .text (Text.spells_escaped _).isSpelling
  | .array [] => @Derives.empty .array [] spaces_nil
  | .array (item :: rest) =>
    @Derives.filled .array _ (derives_compactItems (item :: rest) (List.cons_ne_nil _ _))
  | .object [] => @Derives.empty .object [] spaces_nil
  | .object (member :: rest) =>
    @Derives.filled .object _ (derives_compactMembers (member :: rest) (List.cons_ne_nil _ _))

theorem derives_compactItems :
    (items : List Json) → items ≠ [] → Derives (.items .array) (compactItems items)
  | [], hSome => absurd rfl hSome
  | [item], _ => .one (derives_element (isValue_compact item))
  | item :: second :: rest, _ => by
    rw [compactItems]
    · exact .more (derives_element (isValue_compact item))
        (derives_compactItems (second :: rest) (List.cons_ne_nil _ _))
    · exact List.cons_ne_nil _ _

theorem derives_compactMembers :
    (members : List (String × Json)) → members ≠ [] → Derives (.items .object) (compactMembers members)
  | [], hSome => absurd rfl hSome
  | [(name, value)], _ => .one (derives_member name (isValue_compact value))
  | (name, value) :: second :: rest, _ => by
    rw [compactMembers]
    · exact .more (derives_member name (isValue_compact value))
        (derives_compactMembers (second :: rest) (List.cons_ne_nil _ _))
    · exact List.cons_ne_nil _ _

end

end Latch.Json
