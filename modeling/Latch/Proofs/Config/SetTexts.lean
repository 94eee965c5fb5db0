import Latch.Proofs.Config.SettingText
import Latch.Proofs.Config.Validity

/-!
# Texts set one after the other

What an editor makes of texts for its fields: of all that was set for a field only the last text counts
that it took, so the order of texts for different fields does not matter, and setting a field to what it
shows does nothing.

* `Config.Setting.Left` — what a list of texts leaves in a field;
* `Editor.sets` — the steps that set fields to texts.

Main results:

* `Editor.apply_set_cases` — what a text does to an editor;
* `Editor.valueOf_after_sets` — what any texts, taken or refused, leave in a field;
* `Editor.run_sets_comm` — texts for different fields can be set in either order;
* `Editor.apply_set_read_iff` — which fields can be set to the text that shows them;
* `settings_from_texts` — all this for an editor.
-/

namespace Latch

namespace Config

variable {name text : String} {setting : Setting}

/-! ## What is left in a field -/

/-- What texts leave in a field that held `old`, if they are set in order: the value of the last one
that the field took, and `old` if it took none. -/
inductive Setting.Left (setting : Setting) (old : setting.Value) (texts : List (String × String)) :
    setting.Value → Prop
  | last {before later : List (String × String)} {text : String} {value : setting.Value}
      (hTexts : texts = before ++ (setting.text, text) :: later) (hTakes : setting.Denotes text value)
      (hLater : ∀ text', (setting.text, text') ∈ later → ¬ setting.Takes text') :
      Left setting old texts value
  | none (hNone : ∀ text, (setting.text, text) ∈ texts → ¬ setting.Takes text) :
      Left setting old texts old

/-- A text that the field takes makes what it held before irrelevant. -/
theorem Setting.left_cons_iff_of_denotes {old new value : setting.Value}
    {texts : List (String × String)} (h : setting.Denotes text new) :
    setting.Left old ((setting.text, text) :: texts) value ↔ setting.Left new texts value := by
  constructor
  · rintro (⟨hTexts, hTakes, hLater⟩ | hNone)
    · rename_i before later last
      -- the last text that was taken is the first one of all, or comes later
      cases before with
      | nil =>
        cases hTexts
        rw [hTakes.unique h]
        exact .none hLater
      | cons first before =>
        cases hTexts
        exact .last rfl hTakes hLater
    · exact absurd ⟨new, h⟩ (hNone text List.mem_cons_self)
  · rintro (⟨hTexts, hTakes, hLater⟩ | hNone)
    · rename_i before later last
      have hMore : (setting.text, text) :: texts =
          ((setting.text, text) :: before) ++ (setting.text, last) :: later := congrArg _ hTexts
      exact .last hMore hTakes hLater
    · exact .last (List.nil_append _).symm h hNone

/-- A text that is not for the field, or that it does not take, leaves it as it was. -/
theorem Setting.left_cons_iff_of_not_takes {old value : setting.Value}
    {texts : List (String × String)} (h : name = setting.text → ¬ setting.Takes text) :
    setting.Left old ((name, text) :: texts) value ↔ setting.Left old texts value := by
  constructor
  · rintro (⟨hTexts, hTakes, hLater⟩ | hNone)
    · rename_i before later last
      cases before with
      | nil =>
        cases hTexts
        exact absurd ⟨value, hTakes⟩ (h rfl)
      | cons first before =>
        cases hTexts
        exact .last rfl hTakes hLater
    · exact .none fun text' hMem => hNone text' (List.mem_cons_of_mem _ hMem)
  · rintro (⟨hTexts, hTakes, hLater⟩ | hNone)
    · rename_i before later last
      have hMore : (name, text) :: texts = ((name, text) :: before) ++ (setting.text, last) :: later :=
        congrArg _ hTexts
      exact .last hMore hTakes hLater
    · refine .none fun text' hMem => ?_
      rcases List.mem_cons.mp hMem with hFirst | hRest
      · cases hFirst
        exact h rfl
      · exact hNone text' hRest

end Config

namespace Editor

open Config (Setting)

variable {editor : Editor} {name name' text text' : String}

/-- The steps that set fields to texts, in order. -/
def sets (texts : List (String × String)) : List Step :=
  texts.map fun (name, text) => .set name text

theorem apply_set_of_ok {config : Config} (h : editor.config.set name text = .ok config) :
    editor.apply (.set name text) = (.ok .done, { editor with config }) := by
  rw [apply, set, h]

theorem apply_set_of_error {e : Config.Error} (h : editor.config.set name text = .error e) :
    editor.apply (.set name text) = (.error e, editor) := by
  rw [apply, set, h]

/-- What a text does, on any editor. -/
theorem apply_set_cases (name text : String) :
    (∃ (setting : Setting) (value : setting.Value), name = setting.text ∧
      setting.Denotes text value ∧
      ∀ editor : Editor, editor.apply (.set name text) =
        (.ok .done, { editor with config := editor.config.withValue setting value })) ∨
    ((∀ setting : Setting, name = setting.text → ¬ setting.Takes text) ∧
      ∃ e, ∀ editor : Editor, editor.apply (.set name text) = (.error e, editor)) := by
  rcases Config.set_cases name text with ⟨setting, value, hName, hTakes, hSet⟩ | ⟨hNot, e, hSet⟩
  · exact Or.inl ⟨setting, value, hName, hTakes, fun editor => apply_set_of_ok (hSet editor.config)⟩
  · exact Or.inr ⟨hNot, e, fun editor => apply_set_of_error (hSet editor.config)⟩

/-- **Of all that was set for a field, the last text counts that it took.** -/
theorem valueOf_after_sets (editor : Editor) (texts : List (String × String)) {setting : Setting}
    {value : setting.Value} :
    (editor.after (sets texts)).config.valueOf setting = value ↔
      setting.Left (editor.config.valueOf setting) texts value := by
  induction texts generalizing editor with
  | nil =>
    constructor
    · rintro rfl
      exact .none fun text hMem => absurd hMem List.not_mem_nil
    · rintro (⟨hTexts, -, -⟩ | -)
      · simp at hTexts
      · rfl
  | cons first texts ih =>
    obtain ⟨name, text⟩ := first
    show ((editor.apply (.set name text)).2.after (sets texts)).config.valueOf setting = value ↔ _
    -- the first text decides on what the others find in the field
    rw [ih]
    rcases apply_set_cases name text with ⟨other, new, hName, hTakes, hSet⟩ | ⟨hNot, e, hSet⟩
    · rw [hSet editor]
      by_cases hSame : setting = other
      · subst hSame
        rw [hName, Setting.left_cons_iff_of_denotes hTakes, Config.valueOf_withValue]
      · -- the text was taken by another field
        have hOther : name = setting.text → ¬ setting.Takes text := fun hName' =>
          absurd (Setting.text_injective (hName'.symm.trans hName)) hSame
        rw [Setting.left_cons_iff_of_not_takes hOther,
          Config.valueOf_withValue_of_ne editor.config new hSame]
    · rw [hSet editor, Setting.left_cons_iff_of_not_takes (hNot setting)]

/-- **Texts for different fields can be set in either order.** -/
theorem run_sets_comm (editor : Editor) (h : name ≠ name') (text text' : String) :
    (editor.run [.set name text, .set name' text']).2 =
        (editor.run [.set name' text', .set name text]).2 ∧
      (editor.run [.set name text, .set name' text']).1 =
        (editor.run [.set name' text', .set name text]).1.reverse := by
  have hRun : ∀ step step' : Step, editor.run [step, step'] =
      ([(editor.apply step).1, ((editor.apply step).2.apply step').1],
        ((editor.apply step).2.apply step').2) := fun _ _ => rfl
  rw [hRun, hRun]
  rcases apply_set_cases name text with ⟨setting, value, hName, -, hSet⟩ | ⟨-, e, hSet⟩ <;>
    rcases apply_set_cases name' text' with ⟨other, value', hName', -, hSet'⟩ | ⟨-, e', hSet'⟩ <;>
    simp only [hSet, hSet', List.reverse_cons, List.reverse_nil, List.nil_append, List.cons_append,
      and_true]
  -- both texts are taken
  have hOther : other ≠ setting := by
    rintro rfl
    exact h (hName.trans hName'.symm)
  rw [Config.withValue_comm editor.config value value' hOther]

/-- **A field that is set to the text that shows it stays as it is**, except that a path has to be
there and to have no blanks at its ends. -/
theorem apply_set_read_iff (editor : Editor) (setting : Setting) :
    (editor.apply (.set setting.text (editor.config.read setting))).2 = editor ↔
      (setting = .storePath → ∃ path, editor.config.store.path? = some path ∧ path.text ≠ "" ∧
        Text.Trimmed path.text.toList path.text.toList) := by
  have hShows := Config.read_shows editor.config setting
  rcases apply_set_cases setting.text (editor.config.read setting) with
    ⟨other, value, hName, hTakes, hSet⟩ | ⟨hNot, e, hSet⟩
  · cases Setting.text_injective hName
    have hSame : { editor with config := editor.config.withValue setting value } = editor ↔
        editor.config.valueOf setting = value := by
      rw [← Config.withValue_eq_self_iff]
      exact ⟨fun h => congrArg Editor.config h, fun h => congrArg (Editor.mk · editor.machine) h⟩
    rw [hSet editor, hSame]
    by_cases hPath : setting = .storePath
    · -- the text of a path may stand for another one, or for one where there is none
      subst hPath
      have hDenotes : editor.config.valueOf .storePath = value ↔
          Setting.Denotes .storePath (Config.pathText editor.config.store.path?)
            (editor.config.valueOf .storePath) := by
        constructor
        · rintro rfl
          exact hTakes
        · exact fun hText => hText.unique hTakes
      rw [hDenotes]
      show Setting.Denotes .storePath (Config.pathText editor.config.store.path?)
        editor.config.store.path? ↔ _
      rw [Config.denotes_path_iff]
      exact ⟨fun h _ => h, fun h => h rfl⟩
    · have hValue := hShows.eq_of_denotes hTakes hPath
      exact iff_of_true hValue.symm fun h => absurd h hPath
  · -- only a zero is shown by a text that is refused
    rw [hSet editor]
    refine iff_of_true rfl ?_
    rintro rfl
    exact absurd (Config.takes_path _) (hNot .storePath rfl)

end Editor

/-- **Settings are set from texts field by field.** An editor, with any settings, is given texts for its
fields by name.

* A text is taken exactly if it is for the switch, and, without the blanks around it and in small
  letters, one of eight words; or for the path; or for the count, and consists of an optional plus
  sign and digits, leading zeros included, whose number is one of 1 to 2³² - 1.
* A text that is not taken changes nothing.
* A text that is taken gives its field the value it stands for, and leaves the other fields and the
  machine alone; the field is then shown by the text of that value.
* After any texts, taken or not, a field has the value of the last text that it took, and if it took
  none the one it had.
* Texts for different names can be set in either order, with the same answers.
* Setting a field to the text that shows it changes nothing, for the path exactly if it is there, not
  empty, and without blanks at its ends. -/
theorem settings_from_texts (editor : Editor) :
    (∀ name text, (editor.apply (.set name text)).1 = .ok .done ↔
      (name = "feature_locking.per_user_enabled" ∧
        ∃ word, Text.Trimmed text.toList word ∧ String.ofList (word.map Char.toLower) ∈
          ["true", "1", "yes", "on", "false", "0", "no", "off"]) ∨
      name = "database.path" ∨
      (name = "database.max_connections" ∧
        ∃ digits, (text.toList = digits ∨ text.toList = '+' :: digits) ∧ digits ≠ [] ∧
          (∀ c ∈ digits, '0' ≤ c ∧ c ≤ '9') ∧
          1 ≤ Nat.ofDigitChars 10 digits 0 ∧ Nat.ofDigitChars 10 digits 0 < Nat.pow 2 32)) ∧
    (∀ name text, (editor.apply (.set name text)).1 ≠ .ok .done →
      ∃ e, editor.apply (.set name text) = (.error e, editor)) ∧
    (∀ (setting : Config.Setting) (text : String) (value : setting.Value),
      setting.Denotes text value →
      ∃ config : Config, editor.apply (.set setting.text text) = (.ok .done, { editor with config }) ∧
        config.valueOf setting = value ∧
        (∀ other, other ≠ setting → config.valueOf other = editor.config.valueOf other) ∧
        ∃ shown, setting.Shows value shown ∧ config.get setting.text = .ok shown) ∧
    (∀ (texts : List (String × String)) (setting : Config.Setting) (value : setting.Value),
      (editor.after (Editor.sets texts)).config.valueOf setting = value ↔
        setting.Left (editor.config.valueOf setting) texts value) ∧
    (∀ name name' text text', name ≠ name' →
      (editor.run [.set name text, .set name' text']).2 =
          (editor.run [.set name' text', .set name text]).2 ∧
        (editor.run [.set name text, .set name' text']).1 =
          (editor.run [.set name' text', .set name text]).1.reverse) ∧
    ∀ name shown, editor.config.get name = .ok shown →
      ((editor.apply (.set name shown)).2 = editor ↔
        (name = "database.path" → ∃ path, editor.config.store.path? = some path ∧
          path.text ≠ "" ∧ Text.Trimmed path.text.toList path.text.toList)) := by
  refine ⟨?_, ?_, ?_, fun texts _ _ => editor.valueOf_after_sets texts,
    fun _ _ text text' hNames => editor.run_sets_comm hNames text text', ?_⟩
  · intro name text
    -- a name is taken together with the texts of its field
    have hTaken : (editor.apply (.set name text)).1 = .ok .done ↔
        ∃ setting : Config.Setting, name = setting.text ∧ setting.Takes text := by
      rcases Editor.apply_set_cases name text with ⟨setting, value, hName, hTakes, hSet⟩ | ⟨hNot, e, hSet⟩
      · rw [hSet editor]
        exact iff_of_true rfl ⟨setting, hName, value, hTakes⟩
      · rw [hSet editor]
        refine iff_of_false (by simp) ?_
        rintro ⟨setting, hName, hTakes⟩
        exact hNot setting hName hTakes
    rw [hTaken, ← Config.takes_switch_iff, ← Config.takes_count_iff]
    constructor
    · rintro ⟨setting, hName, hTakes⟩
      cases setting with
      | perUserEnabled => exact Or.inl ⟨hName, hTakes⟩
      | storePath => exact Or.inr (Or.inl hName)
      | maxConnections => exact Or.inr (Or.inr ⟨hName, hTakes⟩)
    · rintro (⟨hName, hTakes⟩ | hName | ⟨hName, hTakes⟩)
      · exact ⟨.perUserEnabled, hName, hTakes⟩
      · exact ⟨.storePath, hName, Config.takes_path text⟩
      · exact ⟨.maxConnections, hName, hTakes⟩
  · intro name text hRefused
    rcases Editor.apply_set_cases name text with ⟨_, _, -, -, hSet⟩ | ⟨-, e, hSet⟩
    · rw [hSet editor] at hRefused
      exact absurd rfl hRefused
    · exact ⟨e, hSet editor⟩
  · intro setting text value hText
    rcases Editor.apply_set_cases setting.text text with
      ⟨other, new, hName, hTakes, hSet⟩ | ⟨hNot, -⟩
    · cases Config.Setting.text_injective hName
      cases hTakes.unique hText
      have hValue := editor.config.valueOf_withValue setting value
      have hShown := Config.read_shows (editor.config.withValue setting value) setting
      rw [hValue] at hShown
      exact ⟨_, hSet editor, hValue, fun other hOther =>
        editor.config.valueOf_withValue_of_ne value hOther, _, hShown, Config.get_eq_read _ _⟩
    · exact absurd ⟨value, hText⟩ (hNot setting rfl)
  · intro name shown hGet
    obtain ⟨setting, rfl, rfl⟩ := Config.get_eq_ok hGet
    rw [editor.apply_set_read_iff setting]
    have hPath : setting = .storePath ↔ setting.text = "database.path" :=
      (Config.Setting.text_injective.eq_iff (b := .storePath)).symm
    rw [hPath]

/-! A zero and a count that does not fit are passed over; a sign and leading zeros are not kept. -/

example : (Editor.fresh.after (Editor.sets
      [("database.max_connections", "+0012"), ("database.path", " a b "),
        ("database.max_connections", "0"), ("database.max_connections", "4294967296"),
        ("feature_locking.per_user_enabled", "Yes ")])).config.list =
    [("feature_locking.per_user_enabled", "true"), ("database.path", "a b"),
      ("database.max_connections", "12")] := by
  decide

end Latch
