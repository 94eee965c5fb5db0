import Latch.Proofs.Json.Typed

/-!
# The members of an object

A record is read from an object member by member: each changes what is known so far, or the reading fails.
Whatever the names and values of the members, and whatever spaces stand around them, each is read just up
to its end. So a member is a step from what is known to what is known then, and an object is as many steps
as it has members.

* `Json.Member` — a member as it may stand in a text;
* `Json.Document` — a text with an object of such members;
* `Json.Follows` — a reader of members takes a step that a relation describes;
* `Json.Steps` — one member after the other;
* `Json.Member.Gives` — what a member does to a single field;
* `Json.valuesOf` — the values under a name;
* `Json.GivesOne`, `Json.GivesOptional` — what the values under a name say.

Main results:

* `Json.readMembers_eq_ok_iff` — the members are read exactly if there is a step for each;
* `Json.readAll_record_eq_ok_iff` — the same for a record that is all of a text;
* `Json.steps_gives_iff` — the steps set a field exactly if its name stands once, and to what is written
  there.
-/

namespace Latch.Json

/-! ## Texts of objects -/

/-- Spaces, if any. -/
abbrev Gap : Type := { cs : List Char // Spaces cs }

def noGap : Gap := ⟨[], spaces_nil⟩

def blankGap : Gap := ⟨[' '], spaces_blank⟩

/-- A member of an object as it may be written: some spelling of its name, any well-formed value, and
spaces before, after and around the colon. -/
structure Member where
  name : String
  spelling : List Char
  value : List Char
  spells : Text.Spells spelling name.toList
  isValue : IsValue value
  before : Gap
  beforeColon : Gap
  afterColon : Gap
  after : Gap

/-- What stands after the name, up to the end of the value. -/
def Member.body (m : Member) : List Char := m.beforeColon.1 ++ ':' :: (m.afterColon.1 ++ m.value)

def Member.text (m : Member) : List Char := m.before.1 ++ (quoted m.spelling ++ (m.body ++ m.after.1))

/-- A member as it is written, with spaces before its name and its value and none elsewhere. -/
def laidOutMember (line gap : Gap) : String × Json → Member
  | (name, value) =>
    { name, spelling := name.toList.flatMap escapeChar, value := value.compact,
      spells := Text.spells_escaped name.toList, isValue := isValue_compact value,
      before := line, beforeColon := noGap, afterColon := gap, after := noGap }

theorem laidOutMember_text (line gap : Gap) (member : String × Json) :
    (laidOutMember line gap member).text =
      line.1 ++ (quote member.1 ++ ':' :: (gap.1 ++ member.2.compact)) := by
  simp [Member.text, Member.body, laidOutMember, noGap, quote_eq]

/-- The members that follow another one, each after a comma. -/
def moreText : List Member → List Char
  | [] => []
  | m :: ms => ',' :: (m.text ++ moreText ms)

def membersText : List Member → List Char
  | [] => []
  | m :: ms => m.text ++ moreText ms

/-- The text of an object, with spaces before its end. -/
def objectText (ms : List Member) (last : Gap) : List Char :=
  '\x7b' :: (membersText ms ++ (last.1 ++ ['\x7d']))

/-- A text that holds an object and spaces around it. -/
structure Document where
  before : Gap
  members : List Member
  last : Gap
  after : Gap

def Document.text (d : Document) : String :=
  String.ofList (d.before.1 ++ (objectText d.members d.last ++ d.after.1))

variable {α σ : Type} {member : String → σ → Reader σ} {Step : Member → σ → σ → Prop}
variable {known known' next nothing : σ} {m : Member} {ms : List Member} {last : Gap}
variable {cs space rest rest' : List Char}

/-- What stands between a value and the next one is no more of a number. -/
theorem ends_moreText (hSpace : Spaces space) (last : Gap) (ms : List Member) :
    Ends (space ++ (moreText ms ++ (last.1 ++ '\x7d' :: rest))) := by
  refine hSpace.ends ?_
  cases ms with
  | nil => exact last.2.ends (ends_closing .object)
  | cons m ms => exact ends_comma

theorem moreText_cons_append (m : Member) (ms : List Member) (rest : List Char) :
    moreText (m :: ms) ++ rest =
      ',' :: (m.before.1 ++ '"' :: (m.spelling ++ '"' :: (m.body ++ (m.after.1 ++ (moreText ms ++ rest))))) := by
  simp [moreText, Member.text, quoted]

theorem membersText_cons_append (m : Member) (ms : List Member) (rest : List Char) :
    membersText (m :: ms) ++ rest =
      m.before.1 ++ '"' :: (m.spelling ++ '"' :: (m.body ++ (m.after.1 ++ (moreText ms ++ rest)))) := by
  simp [membersText, Member.text, quoted]

/-! ## Members one after the other -/

/-- What a member does to what is known is what the relation says, and it is read just up to its end. -/
def Follows (member : String → σ → Reader σ) (Step : Member → σ → σ → Prop) : Prop :=
  ∀ (m : Member) ⦃known known' : σ⦄ ⦃rest rest' : List Char⦄, Ends rest →
    (member m.name known (m.body ++ rest) = .ok (known', rest') ↔ Step m known known' ∧ rest' = rest)

/-- One step for each member. -/
def Steps (Step : Member → σ → σ → Prop) : List Member → σ → σ → Prop
  | [], known, known' => known' = known
  | m :: ms, known, known' => ∃ next, Step m known next ∧ Steps Step ms next known'

/-- The first name is found after spaces, -/
theorem nextName_first (hSpace : Spaces space) :
    nextName true (space ++ '"' :: rest) = .ok (true, rest) := by
  rw [nextName, dropSpace_append hSpace rfl]
  rfl

/-- any other one after a comma with spaces on both sides, -/
theorem nextName_more {before : List Char} (hSpace : Spaces space) (hBefore : Spaces before) :
    nextName false (space ++ ',' :: (before ++ '"' :: rest)) = .ok (true, rest) := by
  rw [nextName, dropSpace_append hSpace rfl]
  dsimp only
  rw [if_neg (by decide), if_neg (by decide), if_pos rfl, dropSpace_append hBefore rfl]
  exact if_pos rfl

/-- and none at the end of the object. -/
theorem nextName_end (isFirst : Bool) (hSpace : Spaces space) :
    nextName isFirst (space ++ '\x7d' :: rest) = .ok (false, rest) := by
  rw [nextName, dropSpace_append hSpace rfl]
  rfl

/-- Once the name of a member is found, there is a step for the member, and then the others are read. -/
theorem readMembers_member {fuel : Nat} {isFirst : Bool} {result : σ × List Char}
    (hFollows : Follows member Step) (hEnds : Ends rest)
    (hName : nextName isFirst cs = .ok (true, m.spelling ++ '"' :: (m.body ++ rest))) :
    readMembers member (fuel + 1) isFirst known cs = .ok result ↔
      ∃ next, Step m known next ∧ readMembers member fuel false next rest = .ok result := by
  rw [readMembers, hName]
  dsimp only
  rw [Text.read_of_spells m.spells]
  dsimp only
  rw [String.ofList_toList]
  constructor
  · intro hRead
    split at hRead
    · cases hRead
    · rename_i next rest' hMember
      obtain ⟨hStep, rfl⟩ := (hFollows m hEnds).mp hMember
      exact ⟨next, hStep, hRead⟩
  · rintro ⟨next, hStep, hRead⟩
    rw [(hFollows m hEnds).mpr ⟨hStep, rfl⟩]
    exact hRead

/-- The members after another one are read. The spaces after that one are still to come. -/
theorem readMembers_more {fuel : Nat} (hFollows : Follows member Step) (hFuel : ms.length < fuel)
    (hSpace : Spaces space) :
    readMembers member fuel false known (space ++ (moreText ms ++ (last.1 ++ '\x7d' :: rest))) =
        .ok (known', rest') ↔ Steps Step ms known known' ∧ rest' = rest := by
  induction ms generalizing fuel known space with
  | nil =>
    cases fuel with
    | zero => cases hFuel
    | succ fuel =>
      -- the spaces after the last member and those before the end come to one
      rw [moreText, List.nil_append, ← List.append_assoc, readMembers,
        nextName_end false (hSpace.append last.2)]
      simp [Steps, eq_comm]
  | cons m ms ih =>
    cases fuel with
    | zero => cases hFuel
    | succ fuel =>
      rw [moreText_cons_append, readMembers_member hFollows (ends_moreText m.after.2 last ms)
        (nextName_more hSpace m.before.2)]
      simp only [ih (Nat.lt_of_succ_lt_succ hFuel) m.after.2, Steps, ← and_assoc, exists_and_right]

/-- **Members are read exactly if there is a step for each**, from the first to the last. -/
theorem readMembers_eq_ok_iff {fuel : Nat} (hFollows : Follows member Step) (hFuel : ms.length < fuel) :
    readMembers member fuel true known (membersText ms ++ (last.1 ++ '\x7d' :: rest)) =
        .ok (known', rest') ↔ Steps Step ms known known' ∧ rest' = rest := by
  cases fuel with
  | zero => cases hFuel
  | succ fuel =>
    cases ms with
    | nil =>
      rw [membersText, List.nil_append, readMembers, nextName_end true last.2]
      simp [Steps, eq_comm]
    | cons m ms =>
      rw [membersText_cons_append, readMembers_member hFollows (ends_moreText m.after.2 last ms)
        (nextName_first m.before.2)]
      simp only [readMembers_more hFollows (Nat.lt_of_succ_lt_succ hFuel) m.after.2, Steps, ← and_assoc,
        exists_and_right]

/-! ## Records and whole texts -/

variable {items : Reader α} {finish : σ → Option α} {a : α}

theorem length_le_moreText (ms : List Member) : ms.length ≤ (moreText ms).length := by
  induction ms with
  | nil => exact Nat.zero_le _
  | cons m ms ih =>
    simp only [moreText, List.length_cons, List.length_append]
    omega

theorem length_le_membersText (ms : List Member) : ms.length ≤ (membersText ms).length := by
  cases ms with
  | nil => exact Nat.zero_le _
  | cons m ms =>
    have hMore := length_le_moreText ms
    simp only [membersText, Member.text, quoted, List.length_cons, List.length_append]
    omega

/-- A record is read from an object exactly if the steps of its members lead to one. -/
theorem readRecord_eq_ok_iff (hFollows : Follows member Step) (hSpace : Spaces space) :
    readRecord items member nothing finish (space ++ (objectText ms last ++ rest)) = .ok (a, rest') ↔
      (∃ known, Steps Step ms nothing known ∧ finish known = some a) ∧ rest' = rest := by
  have hText : objectText ms last ++ rest =
      '\x7b' :: (membersText ms ++ (last.1 ++ '\x7d' :: rest)) := by
    simp [objectText]
  -- there is a round for each member, as each takes a character
  have hFuel : ms.length < (membersText ms ++ (last.1 ++ '\x7d' :: rest)).length + 1 := by
    have hLength := length_le_membersText ms
    rw [List.length_append]
    omega
  rw [hText, readRecord, dropSpace_append hSpace rfl]
  dsimp only
  rw [if_neg (by decide), if_pos rfl]
  constructor
  · intro hRead
    split at hRead
    · cases hRead
    · rename_i known rest'' hMembers
      obtain ⟨hSteps, rfl⟩ := (readMembers_eq_ok_iff hFollows hFuel).mp hMembers
      split at hRead
      · rename_i value hFinish
        cases hRead
        exact ⟨⟨known, hSteps, hFinish⟩, rfl⟩
      · cases hRead
  · rintro ⟨⟨known, hSteps, hFinish⟩, rfl⟩
    rw [(readMembers_eq_ok_iff hFollows hFuel).mpr ⟨hSteps, rfl⟩]
    dsimp only
    rw [hFinish]

/-- **A text with an object is read exactly if the steps of its members lead to a record.** -/
theorem readAll_record_eq_ok_iff (hFollows : Follows member Step) (d : Document) :
    readAll (readRecord items member nothing finish) d.text = .ok a ↔
      ∃ known, Steps Step d.members nothing known ∧ finish known = some a := by
  have hRecord : ∀ {rest' : List Char}, readRecord items member nothing finish
      (d.before.1 ++ (objectText d.members d.last ++ d.after.1)) = .ok (a, rest') ↔
        (∃ known, Steps Step d.members nothing known ∧ finish known = some a) ∧ rest' = d.after.1 :=
    readRecord_eq_ok_iff hFollows d.before.2
  rw [readAll, Document.text, String.toList_ofList]
  constructor
  · intro hRead
    split at hRead
    · cases hRead
    · rename_i value rest hValue
      split at hRead
      · cases hRead
        exact (hRecord.mp hValue).1
      · cases hRead
  · intro hSteps
    rw [hRecord.mpr ⟨hSteps, rfl⟩]
    dsimp only
    rw [dropSpace_of_spaces d.after.2]
    rfl

/-! ## Single fields -/

variable {read : Reader α} {Writes : List Char → α → Prop} {given old new : Option α} {store : α → σ}

/-- What a member does to the field of a name: a member of that name sets it if it was not set before, and
all others leave it as it is. -/
def Member.Gives (name : String) (Writes : List Char → α → Prop) (m : Member) (old new : Option α) : Prop :=
  if m.name = name then old = none ∧ ∃ a, Writes m.value a ∧ new = some a else new = old

theorem colon_append (hSpace : Spaces space) : colon (space ++ ':' :: rest) = .ok rest := by
  rw [colon, dropSpace_append hSpace rfl]
  exact if_pos rfl

theorem Member.body_append (m : Member) (rest : List Char) :
    m.body ++ rest = m.beforeColon.1 ++ ':' :: (m.afterColon.1 ++ (m.value ++ rest)) := by
  simp [Member.body]

/-- A field takes the value of a member exactly if it has none yet and the value is of its type. -/
theorem field_eq_ok_iff (hRead : ReadsExactly read Writes) (m : Member) (hEnds : Ends rest) :
    field given read store (m.body ++ rest) = .ok (known, rest') ↔
      (given = none ∧ ∃ a, Writes m.value a ∧ known = store a) ∧ rest' = rest := by
  rw [field, memberValue, m.body_append, colon_append m.beforeColon.2]
  cases given with
  | some a => simp
  | none =>
    simp only [Option.isSome_none, Bool.false_eq_true, if_false, true_and]
    rw [map_eq_ok_iff]
    constructor
    · rintro ⟨⟨a, rest''⟩, hValue, hSame⟩
      obtain ⟨hWrites, rfl⟩ := (hRead.eq_ok_iff m.afterColon.2 m.isValue hEnds).mp hValue
      cases hSame
      exact ⟨⟨a, hWrites, rfl⟩, rfl⟩
    · rintro ⟨⟨a, hWrites, rfl⟩, rfl⟩
      exact ⟨(a, rest'), hRead.reads hWrites m.afterColon.2 hEnds, rfl⟩

/-- A member that nobody knows is passed over, whatever its value. -/
theorem skipMember_body (known : σ) (m : Member) (hEnds : Ends rest) :
    skipMember known (m.body ++ rest) = .ok (known, rest) := by
  rw [skipMember, m.body_append, colon_append m.beforeColon.2]
  dsimp only
  rw [skip_value m.isValue m.afterColon.2 hEnds]
  rfl

/-- The values that stand under a name, in their order. -/
def valuesOf (name : String) (ms : List Member) : List (List Char) :=
  (ms.filter fun m => m.name = name).map Member.value

theorem valuesOf_cons (name : String) (m : Member) (ms : List Member) :
    valuesOf name (m :: ms) = if m.name = name then m.value :: valuesOf name ms else valuesOf name ms := by
  by_cases hName : m.name = name <;> simp [valuesOf, hName]

/-- **The members set a field exactly if there is one for it**, and then to what is written there; they
leave it as it is exactly if there is none. -/
theorem steps_gives_iff (name : String) : Steps (Member.Gives name Writes) ms old new ↔
    (valuesOf name ms = [] ∧ new = old) ∨
      ∃ value a, valuesOf name ms = [value] ∧ Writes value a ∧ old = none ∧ new = some a := by
  induction ms generalizing old with
  | nil => simp [Steps, valuesOf]
  | cons m ms ih =>
    simp only [Steps, ih, valuesOf_cons, Member.Gives]
    by_cases hName : m.name = name
    · simp only [hName, if_true]
      constructor
      · rintro ⟨next, ⟨rfl, a, hWrites, rfl⟩, ⟨hNone, rfl⟩ | ⟨value, b, -, -, hSome, -⟩⟩
        · exact Or.inr ⟨m.value, a, by rw [hNone], hWrites, rfl, rfl⟩
        · cases hSome
      · rintro (⟨hNone, -⟩ | ⟨value, a, hOne, hWrites, rfl, rfl⟩)
        · cases hNone
        · obtain ⟨rfl, hNone⟩ := List.cons.inj hOne
          exact ⟨some a, ⟨rfl, a, hWrites, rfl⟩, Or.inl ⟨hNone, rfl⟩⟩
    · simp [hName]

/-- What the values under a name say of what must be there: a single value stands there. -/
def GivesOne (Writes : List Char → α → Prop) (values : List (List Char)) (a : α) : Prop :=
  ∃ value, values = [value] ∧ Writes value a

/-- What the values under a name say of what may be missing: no value stands there, or a single one. -/
inductive GivesOptional (Writes : List Char → α → Prop) : List (List Char) → Option α → Prop
  | missing : GivesOptional Writes [] none
  | single {value : List Char} {a : Option α} (hWrites : WritesOptional Writes value a) :
      GivesOptional Writes [value] a

theorem GivesOne.length {values : List (List Char)} {a : α} (h : GivesOne Writes values a) :
    values.length ≤ 1 := by
  obtain ⟨value, rfl, -⟩ := h
  exact Nat.le_refl 1

theorem GivesOptional.length {values : List (List Char)} {a : Option α}
    (h : GivesOptional Writes values a) : values.length ≤ 1 := by
  cases h with
  | missing => exact Nat.zero_le 1
  | single => exact Nat.le_refl 1

theorem steps_gives_some_iff {name : String} {a : α} :
    Steps (Member.Gives name Writes) ms none (some a) ↔ GivesOne Writes (valuesOf name ms) a := by
  rw [steps_gives_iff]
  constructor
  · rintro (⟨-, hSome⟩ | ⟨value, b, hOne, hWrites, -, hSame⟩)
    · cases hSome
    · cases hSame
      exact ⟨value, hOne, hWrites⟩
  · rintro ⟨value, hOne, hWrites⟩
    exact Or.inr ⟨value, a, hOne, hWrites, rfl, rfl⟩

theorem exists_steps_gives_iff {name : String} {a : Option α} :
    (∃ new, Steps (Member.Gives name (WritesOptional Writes)) ms none new ∧ new.join = a) ↔
      GivesOptional Writes (valuesOf name ms) a := by
  constructor
  · rintro ⟨new, hSteps, rfl⟩
    obtain ⟨hNone, rfl⟩ | ⟨value, b, hOne, hWrites, -, rfl⟩ := (steps_gives_iff name).mp hSteps
    · rw [hNone]
      exact .missing
    · rw [hOne]
      exact .single hWrites
  · intro hGives
    generalize hValues : valuesOf name ms = values at hGives
    cases hGives with
    | missing => exact ⟨none, (steps_gives_iff name).mpr (Or.inl ⟨hValues, rfl⟩), rfl⟩
    | @single value a hWrites =>
      exact ⟨some a, (steps_gives_iff name).mpr (Or.inr ⟨value, a, hValues, hWrites, rfl, rfl⟩), rfl⟩

end Latch.Json
