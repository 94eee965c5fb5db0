import Latch.Config.Basic
import Latch.Proofs.Text.Blank
import Latch.Proofs.Text.Decimal

/-!
# Settings from texts

People set a field of the settings by its name and a text. Which texts a field takes, and what they
stand for, can be said without the settings around it; so what is set for one field concerns no other.

* `Config.Setting.Value`, `Config.valueOf`, `Config.withValue` — the fields of settings, each with its
  own kind of values;
* `Config.Setting.Denotes` — the texts that a field takes, and the value of each;
* `Config.Setting.Shows` — the text by which a value is shown.

Main results:

* `Config.takes_switch_iff`, `Config.takes_path`, `Config.takes_count_iff` — the texts each field takes,
  spelled out;
* `Config.set_cases` — a text is set exactly if its field takes it, and then in that field alone;
* `Config.read_shows` — a field is shown by the text of its value;
* `Config.Setting.Shows.eq_of_denotes`, `Config.denotes_path_iff` — what the text that shows a value
  stands for.
-/

namespace Latch

namespace Config

variable {config config' : Config} {setting other : Setting} {name text : String}

/-! ## Fields -/

/-- The values of a field. -/
abbrev Setting.Value : Setting → Type
  | .perUserEnabled => Bool
  | .storePath => Option Path
  | .maxConnections => UInt32

def valueOf (config : Config) : (setting : Setting) → setting.Value
  | .perUserEnabled => config.perUserEnabled
  | .storePath => config.store.path?
  | .maxConnections => config.store.maxConnections

def withValue (config : Config) : (setting : Setting) → setting.Value → Config
  | .perUserEnabled, perUserEnabled => { config with perUserEnabled }
  | .storePath, path? => { config with store := { config.store with path? } }
  | .maxConnections, maxConnections => { config with store := { config.store with maxConnections } }

@[simp] theorem valueOf_withValue (config : Config) (setting : Setting) (value : setting.Value) :
    (config.withValue setting value).valueOf setting = value := by
  cases setting <;> rfl

theorem valueOf_withValue_of_ne (config : Config) (value : setting.Value) (h : other ≠ setting) :
    (config.withValue setting value).valueOf other = config.valueOf other := by
  cases setting <;> cases other <;> first | rfl | exact absurd rfl h

theorem withValue_eq_self_iff {value : setting.Value} :
    config.withValue setting value = config ↔ config.valueOf setting = value := by
  constructor
  · intro hSame
    rw [← hSame, valueOf_withValue]
  · rintro rfl
    cases setting <;> rfl

theorem withValue_comm (config : Config) (value : setting.Value) (value' : other.Value)
    (h : other ≠ setting) :
    (config.withValue setting value).withValue other value' =
      (config.withValue other value').withValue setting value := by
  cases setting <;> cases other <;> first | rfl | exact absurd rfl h

theorem Setting.text_injective : Function.Injective Setting.text := by
  intro setting other h
  cases setting <;> cases other <;> first | rfl | exact absurd h (by decide)

theorem Setting.ofText?_eq_some_iff : Setting.ofText? name = some setting ↔ name = setting.text := by
  constructor
  · intro h
    have hText := List.find?_some h
    exact (beq_iff_eq.mp hText).symm
  · rintro rfl
    cases setting <;> decide

/-! ## What a field takes -/

/-- The texts that a field takes, and the value of each.

* The switch takes a word for true or false, in large or small letters and with blanks around it.
* The path takes any text, without the blanks around it; if nothing is left, there is no path.
* The count takes digits, perhaps after a plus sign, whose number is not zero and fits. -/
inductive Setting.Denotes : (setting : Setting) → String → setting.Value → Prop
  | isTrue {text : String} {word : List Char} (hTrim : Text.Trimmed text.toList word)
      (hWord : String.ofList (word.map Char.toLower) ∈ ["true", "1", "yes", "on"]) :
      Denotes .perUserEnabled text true
  | isFalse {text : String} {word : List Char} (hTrim : Text.Trimmed text.toList word)
      (hWord : String.ofList (word.map Char.toLower) ∈ ["false", "0", "no", "off"]) :
      Denotes .perUserEnabled text false
  | path {text : String} {trimmed : List Char} (hTrim : Text.Trimmed text.toList trimmed)
      (hSome : trimmed ≠ []) : Denotes .storePath text (some ⟨String.ofList trimmed⟩)
  | noPath {text : String} (hTrim : Text.Trimmed text.toList []) : Denotes .storePath text none
  | count {text : String} {digits : List Char} {n : UInt32}
      (hSign : text.toList = digits ∨ text.toList = '+' :: digits) (hSome : digits ≠ [])
      (hDigits : ∀ c ∈ digits, '0' ≤ c ∧ c ≤ '9')
      (hValue : Nat.ofDigitChars 10 digits 0 = n.toNat) (hPositive : 1 ≤ n.toNat) :
      Denotes .maxConnections text n

/-- The field takes the text. -/
def Setting.Takes (setting : Setting) (text : String) : Prop :=
  ∃ value, setting.Denotes text value

theorem bool?_eq_some_iff {b : Bool} :
    bool? text = some b ↔ Setting.Denotes .perUserEnabled text b := by
  have hTrim : Text.Trimmed text.toList (Text.trim text.toList) := Text.trimmed_trim _
  have hWord : ∀ {t}, Text.Trimmed text.toList t →
      word text = String.ofList (t.map Char.toLower) := by
    intro t h
    rw [word, h.trim_eq]
    rfl
  unfold bool?
  constructor
  · intro h
    split at h
    case isTrue hTrue =>
      cases h
      exact .isTrue hTrim (hWord hTrim ▸ hTrue)
    case isFalse =>
      split at h
      case isTrue hFalse =>
        cases h
        exact .isFalse hTrim (hWord hTrim ▸ hFalse)
      case isFalse => cases h
  · intro h
    cases h with
    | isTrue hTrim hIn =>
      rw [hWord hTrim]
      exact if_pos hIn
    | isFalse hTrim hIn =>
      -- no word is one for both
      have hNot : ∀ w ∈ falseWords, w ∉ trueWords := by decide
      rw [hWord hTrim, if_neg (hNot _ hIn)]
      exact if_pos hIn

theorem path?_eq_iff {path : Option Path} :
    path? text = path ↔ Setting.Denotes .storePath text path := by
  have hTrim : Text.Trimmed text.toList (Text.trim text.toList) := Text.trimmed_trim _
  unfold path?
  constructor
  · rintro rfl
    split
    · rename_i hNone
      rw [hNone] at hTrim
      exact .noPath hTrim
    · rename_i hSome
      exact .path hTrim fun hNone => hSome hNone
  · intro h
    cases h with
    | path hTrim hSome =>
      rw [hTrim.trim_eq]
      split
      · exact absurd rfl hSome
      · rfl
    | noPath hTrim => rw [hTrim.trim_eq]

theorem count_eq_ok_iff {n : UInt32} :
    count text = .ok n ↔ Setting.Denotes .maxConnections text n := by
  have hRead : Setting.Denotes .maxConnections text n ↔
      Decimal.readNat UInt32.size text.toList = .ok n.toNat ∧ 1 ≤ n.toNat := by
    rw [Decimal.readNat_eq_ok_iff]
    constructor
    · intro hText
      cases hText with
      | count hSign hSome hDigits hValue hPositive =>
        have hFits : n.toNat < UInt32.size := n.toNat_lt_size
        have hAscii : ∀ c ∈ _, Decimal.isDigit c = true := fun c hc =>
          Decimal.isDigit_iff.mpr (hDigits c hc)
        exact ⟨⟨_, hSign, ⟨hAscii, hValue⟩, hSome, hFits⟩, hPositive⟩
    · rintro ⟨⟨digits, hSign, hBelow⟩, hPositive⟩
      exact .count hSign hBelow.ne_nil (fun c hc => Decimal.isDigit_iff.mp (hBelow.isDigit c hc))
        hBelow.value hPositive
  rw [hRead]
  unfold count
  constructor
  · intro h
    split at h
    · cases h
    · cases h
    · rename_i m hSome hResult
      cases h
      have hFits : m < UInt32.size := Decimal.readNat_lt hResult
      rw [UInt32.toNat_ofNat_of_lt' hFits]
      exact ⟨hResult, Nat.pos_of_ne_zero fun hZero => hSome hZero⟩
  · rintro ⟨hResult, hPositive⟩
    rw [hResult]
    split
    · rename_i hFault
      cases hFault
    · rename_i hZero
      have hNone := Except.ok.inj hZero
      omega
    · rename_i m _ hSame
      cases hSame
      rw [UInt32.ofNat_toNat]

/-- **The switch takes the words for true and false.** -/
theorem takes_switch_iff : Setting.Takes .perUserEnabled text ↔
    ∃ word, Text.Trimmed text.toList word ∧ String.ofList (word.map Char.toLower) ∈
      ["true", "1", "yes", "on", "false", "0", "no", "off"] := by
  have hWords : ∀ w : String, w ∈ ["true", "1", "yes", "on", "false", "0", "no", "off"] ↔
      w ∈ ["true", "1", "yes", "on"] ∨ w ∈ ["false", "0", "no", "off"] := fun w =>
    List.mem_append (s := ["true", "1", "yes", "on"]) (t := ["false", "0", "no", "off"])
  constructor
  · rintro ⟨value, hText⟩
    cases hText with
    | isTrue hTrim hWord => exact ⟨_, hTrim, (hWords _).mpr (Or.inl hWord)⟩
    | isFalse hTrim hWord => exact ⟨_, hTrim, (hWords _).mpr (Or.inr hWord)⟩
  · rintro ⟨word, hTrim, hWord⟩
    rcases (hWords _).mp hWord with hTrue | hFalse
    · exact ⟨true, .isTrue hTrim hTrue⟩
    · exact ⟨false, .isFalse hTrim hFalse⟩

theorem takes_path (text : String) : Setting.Takes .storePath text :=
  ⟨path? text, path?_eq_iff.mp rfl⟩

/-- **The count takes digits whose number is not zero and fits**, however many there are. -/
theorem takes_count_iff : Setting.Takes .maxConnections text ↔
    ∃ digits, (text.toList = digits ∨ text.toList = '+' :: digits) ∧ digits ≠ [] ∧
      (∀ c ∈ digits, '0' ≤ c ∧ c ≤ '9') ∧
      1 ≤ Nat.ofDigitChars 10 digits 0 ∧ Nat.ofDigitChars 10 digits 0 < Nat.pow 2 32 := by
  constructor
  · rintro ⟨n, hText⟩
    cases hText with
    | count hSign hSome hDigits hValue hPositive =>
      have hFits : n.toNat < UInt32.size := n.toNat_lt_size
      rw [← hValue] at hPositive hFits
      exact ⟨_, hSign, hSome, hDigits, hPositive, hFits⟩
  · rintro ⟨digits, hSign, hSome, hDigits, hPositive, hFits⟩
    have hWord : (UInt32.ofNat (Nat.ofDigitChars 10 digits 0)).toNat =
        Nat.ofDigitChars 10 digits 0 :=
      UInt32.toNat_ofNat_of_lt' hFits
    have hSome' : 1 ≤ (UInt32.ofNat (Nat.ofDigitChars 10 digits 0)).toNat := by
      rw [hWord]
      exact hPositive
    exact ⟨_, .count hSign hSome hDigits hWord.symm hSome'⟩

/-- A text stands for one value. -/
theorem Setting.Denotes.unique {value value' : setting.Value} (h : setting.Denotes text value)
    (h' : setting.Denotes text value') : value = value' := by
  cases setting with
  | perUserEnabled =>
    have hSame := (bool?_eq_some_iff.mpr h).symm.trans (bool?_eq_some_iff.mpr h')
    exact Option.some.inj hSame
  | storePath => exact (path?_eq_iff.mpr h).symm.trans (path?_eq_iff.mpr h')
  | maxConnections =>
    have hSame := (count_eq_ok_iff.mpr h).symm.trans (count_eq_ok_iff.mpr h')
    exact Except.ok.inj hSame

/-! ## Setting a field -/

/-- A field takes a text, and then nothing else changes; or it does not, for a reason that has nothing
to do with the settings. -/
theorem write_cases (setting : Setting) (text : String) :
    (∃ value, setting.Denotes text value ∧
      ∀ config : Config, config.write text setting = .ok (config.withValue setting value)) ∨
    (¬ setting.Takes text ∧ ∃ e, ∀ config : Config, config.write text setting = .error e) := by
  cases setting with
  | perUserEnabled =>
    cases hText : bool? text with
    | some b =>
      refine Or.inl ⟨b, bool?_eq_some_iff.mp hText, fun config => ?_⟩
      rw [write, hText]
      rfl
    | none =>
      refine Or.inr ⟨?_, .notBoolean (word text), fun config => ?_⟩
      · rintro ⟨b, hTakes⟩
        rw [bool?_eq_some_iff.mpr hTakes] at hText
        cases hText
      · rw [write, hText]
  | storePath => exact Or.inl ⟨path? text, path?_eq_iff.mp rfl, fun config => rfl⟩
  | maxConnections =>
    cases hText : count text with
    | ok n =>
      refine Or.inl ⟨n, count_eq_ok_iff.mp hText, fun config => ?_⟩
      rw [write, hText]
      rfl
    | error e =>
      refine Or.inr ⟨?_, e, fun config => ?_⟩
      · rintro ⟨n, hTakes⟩
        rw [count_eq_ok_iff.mpr hTakes] at hText
        cases hText
      · rw [write, hText]
        rfl

/-- **A text is set exactly if its field takes it**, and then in that field alone. -/
theorem set_cases (name text : String) :
    (∃ (setting : Setting) (value : setting.Value), name = setting.text ∧
      setting.Denotes text value ∧
      ∀ config : Config, config.set name text = .ok (config.withValue setting value)) ∨
    ((∀ setting : Setting, name = setting.text → ¬ setting.Takes text) ∧
      ∃ e, ∀ config : Config, config.set name text = .error e) := by
  cases hName : Setting.ofText? name with
  | none =>
    refine Or.inr ⟨?_, .unknownSetting name, fun config => ?_⟩
    · intro setting hKnown
      rw [Setting.ofText?_eq_some_iff.mpr hKnown] at hName
      cases hName
    · rw [set, hName]
  | some setting =>
    have hSet : ∀ config : Config, config.set name text = config.write text setting := by
      intro config
      rw [set, hName]
    have hText : name = setting.text := Setting.ofText?_eq_some_iff.mp hName
    simp only [hSet]
    rcases write_cases setting text with ⟨value, hTakes, hWrite⟩ | ⟨hNot, e, hWrite⟩
    · exact Or.inl ⟨setting, value, hText, hTakes, hWrite⟩
    · refine Or.inr ⟨?_, e, hWrite⟩
      intro other hOther
      rw [← Setting.text_injective (hText.symm.trans hOther)]
      exact hNot

/-! ## Showing a field -/

/-- The text by which a value is shown. -/
inductive Setting.Shows : (setting : Setting) → setting.Value → String → Prop
  | isTrue : Shows .perUserEnabled true "true"
  | isFalse : Shows .perUserEnabled false "false"
  | path (path : Path) : Shows .storePath (some path) path.text
  | noPath : Shows .storePath none "(default)"
  | count {n : UInt32} {text : String} (hSome : text ≠ "")
      (hDigits : ∀ c ∈ text.toList, '0' ≤ c ∧ c ≤ '9')
      (hValue : Nat.ofDigitChars 10 text.toList 0 = n.toNat)
      (hFirst : text.toList.head? = some '0' → n = 0 ∧ text = "0") :
      Shows .maxConnections n text

/-- **A field is shown by the text of its value.** -/
theorem read_shows (config : Config) (setting : Setting) :
    setting.Shows (config.valueOf setting) (config.read setting) := by
  cases setting with
  | perUserEnabled =>
    show Setting.Shows .perUserEnabled config.perUserEnabled (boolText config.perUserEnabled)
    cases config.perUserEnabled with
    | true => exact .isTrue
    | false => exact .isFalse
  | storePath =>
    show Setting.Shows .storePath config.store.path? (pathText config.store.path?)
    cases config.store.path? with
    | none => exact .noPath
    | some path => exact .path path
  | maxConnections =>
    -- the digits of a number have no zero at their front, except for the number zero
    show Setting.Shows .maxConnections config.store.maxConnections
      (countText config.store.maxConnections)
    generalize config.store.maxConnections = n
    have hList : (countText n).toList = Decimal.nat n.toNat := String.toList_ofList
    obtain ⟨first, more, hFirst, hZero⟩ := Decimal.nat_eq_cons n.toNat
    refine .count ?_ ?_ ?_ ?_
    · intro hEmpty
      rw [hEmpty, hFirst] at hList
      cases hList
    · rw [hList]
      exact fun c hc => Decimal.isDigit_iff.mp (Decimal.isDigit_of_mem_nat hc)
    · rw [hList, Decimal.ofDigitChars_nat]
    · rw [hList, hFirst]
      intro hStart
      cases hStart
      have hNone : n.toNat = 0 := hZero rfl
      refine ⟨UInt32.toNat_inj.mp hNone, ?_⟩
      rw [countText, hNone]
      rfl

theorem get_eq_ok {shown : String} (h : config.get name = .ok shown) :
    ∃ setting : Setting, name = setting.text ∧ shown = config.read setting := by
  unfold get at h
  split at h
  · rename_i setting hName
    cases h
    exact ⟨setting, Setting.ofText?_eq_some_iff.mp hName, rfl⟩
  · cases h

theorem get_eq_read (config : Config) (setting : Setting) :
    config.get setting.text = .ok (config.read setting) := by
  rw [get, Setting.ofText?_eq_some_iff.mpr rfl]

/-- The text that shows a switch or a count stands for that value, or, where it shows a zero, for none. -/
theorem Setting.Shows.eq_of_denotes {value value' : setting.Value} (hShows : setting.Shows value text)
    (hText : setting.Denotes text value') (hPath : setting ≠ .storePath) : value' = value := by
  cases hShows with
  | isTrue =>
    have hTrue : bool? "true" = some true := rfl
    exact Setting.Denotes.unique hText (bool?_eq_some_iff.mp hTrue)
  | isFalse =>
    have hFalse : bool? "false" = some false := rfl
    exact Setting.Denotes.unique hText (bool?_eq_some_iff.mp hFalse)
  | path | noPath => exact absurd rfl hPath
  | count hSome hDigits hValue hFirst =>
    cases hText with
    | count hSign _ _ hValue' _ =>
      rcases hSign with hSame | hSign
      · rw [hSame, hValue'] at hValue
        exact UInt32.toNat_inj.mp hValue
      · -- a count is shown without a sign
        have hPlus := hDigits '+' (by simp [hSign])
        exact absurd hPlus (by decide)

/-- The text that shows a path stands for it if the path is there and has no blanks at its ends. -/
theorem denotes_path_iff {path? : Option Path} :
    Setting.Denotes .storePath (pathText path?) path? ↔
      ∃ path, path? = some path ∧ path.text ≠ "" ∧
        Text.Trimmed path.text.toList path.text.toList := by
  cases path? with
  | none =>
    -- the text shown in place of a path would be one
    have hNamed : Config.path? "(default)" = some ⟨"(default)"⟩ := rfl
    constructor
    · intro hNone
      have hSame := Setting.Denotes.unique hNone (path?_eq_iff.mp hNamed)
      cases hSame
    · rintro ⟨path, hPath, -⟩
      cases hPath
  | some path =>
    obtain ⟨text⟩ := path
    show Setting.Denotes .storePath text (some ⟨text⟩) ↔ _
    constructor
    · intro hText
      generalize hValue : some (Path.mk text) = value at hText
      cases hText with
      | path hTrim hSome =>
        cases hValue
        rw [String.toList_ofList] at hTrim
        refine ⟨_, rfl, fun hEmpty => hSome ?_, ?_⟩
        · simpa using hEmpty
        · rwa [String.toList_ofList]
      | noPath => cases hValue
    · rintro ⟨path, hPath, hSome, hTrim⟩
      cases hPath
      have hText := Setting.Denotes.path hTrim (by simpa using hSome)
      rwa [String.ofList_toList] at hText

end Config

end Latch
