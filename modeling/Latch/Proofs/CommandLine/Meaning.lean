import Latch.CommandLine.Run
import Latch.Proofs.Properties.Overlay
import Latch.Proofs.Text.Decimal
import Mathlib.Data.List.TakeWhile

/-!
# What a command on a key asks for

The options and words of a command line say which key a command is about, and which request it makes. The
meaning of each command is written down here without the functions that read it.

* `CommandLine.DataCommand.request?` — the request that a command makes;
* `CommandLine.Scan.Names` — the key that is named;
* `CommandLine.Scan.Means` — the request that is meant;
* `CommandLine.Scan.Sound` — every option that was given has a value that is one;
* `CommandLine.Asked` — the words of a command line name a key and mean a request.

Main results:

* `CommandLine.Scan.pair?_eq_some_iff` — a word is split at its first equals sign;
* `CommandLine.Scan.sound_of_scan` — whatever was read has values that make sense;
* `CommandLine.asked_of_ofWords`, `CommandLine.exists_ofWords` — the command lines that are accepted are
  those that have a meaning, and make the request that is meant.
-/

namespace Latch.CommandLine

/-- The request that a command makes; a lock without a duration makes none. -/
def DataCommand.request? (c : DataCommand) : Option Request :=
  match c.action with
  | .status => some (.status c.key)
  | .lock none _ _ => none
  | .lock (some duration) reasonCode reason => some (.lock c.key duration reasonCode reason)
  | .unlock => some (.unlock c.key)
  | .getProperties none => some (.properties c.key)
  | .getProperties (some name) => some (.property c.key name)
  | .setProperties pairs => some (.setProperties c.key (.ofList pairs))
  | .deleteProperties given => some (.deleteProperties c.key (distinct given))
  | .clearProperties => some (.deleteAllProperties c.key)

/-! ## Sets of pairs and of names -/

/-- The last pair of a name counts. -/
theorem get?_ofList (pairs : List (String × String)) (name : String) :
    (Properties.ofList pairs).get? name = pairs.reverse.lookup name := by
  rw [Properties.ofList, Properties.get?_foldl_insert, overlay_eq_lookup]
  exact Option.or_none

theorem nodup_distinct (given : List String) : (distinct given).Nodup :=
  (Properties.ofList (given.map fun name => (name, ""))).nodup

theorem mem_distinct {given : List String} {name : String} :
    name ∈ distinct given ↔ name ∈ given := by
  have hNames : ∀ p : Properties, name ∈ p.names ↔ p.get? name ≠ none := by
    intro p
    rw [Option.ne_none_iff_exists']
    simp only [Properties.get?_eq_some_iff, Properties.names, List.mem_map, Prod.exists]
    constructor
    · rintro ⟨other, value, hMem, rfl⟩
      exact ⟨value, hMem⟩
    · rintro ⟨value, hMem⟩
      exact ⟨name, value, hMem, rfl⟩
  rw [distinct, hNames, get?_ofList, Ne, List.lookup_eq_none_iff]
  simp

namespace Scan

variable {s s' : Scan} {key : Key} {c : DataCommand}

/-! ## Meaning -/

/-- The key that the options name. -/
structure Names (s : Scan) (key : Key) : Prop where
  user : s.value? .user = some key.user
  tenant : ∃ text, s.value? .tenant = some text ∧
    Decimal.readInt (Nat.pow 2 31) text.toList = .ok key.tenant.toInt
  feature : s.value? .feature = some key.feature

/-- What is asked for a key; none for a lock without a duration. -/
inductive Means (s : Scan) (key : Key) : Option Request → Prop
  | status (hLevel : s.level = .verb .status) : Means s key (some (.status key))
  | lockFor {text : String} {duration : Millis} (hLevel : s.level = .verb .lock)
      (hEnd : s.has .indefinite = false) (hText : s.value? .duration = some text)
      (hDuration : Decimal.readInt (Nat.pow 2 63) text.toList = .ok duration.toInt) :
      Means s key (some (.lock key duration (s.value? .reasonCode) (s.value? .reason)))
  | lockIndefinitely (hLevel : s.level = .verb .lock) (hEndless : s.has .indefinite = true)
      (hText : s.value? .duration = none) :
      Means s key (some (.lock key (-1) (s.value? .reasonCode) (s.value? .reason)))
  | lockUnsaid (hLevel : s.level = .verb .lock) (hEnd : s.has .indefinite = false)
      (hText : s.value? .duration = none) : Means s key none
  | unlock (hLevel : s.level = .verb .unlock) : Means s key (some (.unlock key))
  | getAll (hLevel : s.level = .verb .propsGet) (hName : s.value? .name = none) :
      Means s key (some (.properties key))
  | getOne {name : String} (hLevel : s.level = .verb .propsGet) (hName : s.value? .name = some name) :
      Means s key (some (.property key name))
  /-- Each word is a name that is not empty, an equals sign, and any value; the first equals sign ends
  the name, and the last value of a name counts. -/
  | set {pairs : List (String × String)} {given : Properties} (hLevel : s.level = .verb .propsSet)
      (hSome : pairs ≠ []) (hNames : ∀ pair ∈ pairs, pair.1 ≠ "" ∧ '=' ∉ pair.1.toList)
      (hWords : s.words.reverse = pairs.map fun pair => pair.1 ++ "=" ++ pair.2)
      (hGiven : ∀ name, given.get? name = pairs.reverse.lookup name) :
      Means s key (some (.setProperties key given))
  | delete {names : List String} (hLevel : s.level = .verb .propsDelete) (hSome : s.words ≠ [])
      (hNodup : names.Nodup) (hNames : ∀ name, name ∈ names ↔ name ∈ s.words) :
      Means s key (some (.deleteProperties key names))
  | clear (hLevel : s.level = .verb .propsClear) : Means s key (some (.deleteAllProperties key))

/-! ## Pairs -/

theorem splitEquals_eq_iff {cs name value : List Char} :
    splitEquals cs = (name, some value) ↔ '=' ∉ name ∧ cs = name ++ '=' :: value := by
  unfold splitEquals
  constructor
  · intro h
    have hSplit := List.takeWhile_append_dropWhile (p := (· ≠ '=')) (l := cs)
    split at h
    · cases h
    · rename_i first rest hRest
      cases h
      -- what is left after the name begins with the mark
      have hFirst : first = '=' := by
        have hHead := List.head?_dropWhile_not (p := (· ≠ '=')) (l := cs)
        rw [hRest] at hHead
        simpa using hHead
      subst hFirst
      rw [hRest] at hSplit
      refine ⟨fun hMem => ?_, hSplit.symm⟩
      simpa using List.mem_takeWhile_imp hMem
  · rintro ⟨hName, rfl⟩
    have hAll : ∀ c ∈ name, decide (c ≠ '=') = true := by
      intro c hMem
      simp only [decide_eq_true_eq]
      rintro rfl
      exact hName hMem
    rw [List.dropWhile_append_of_pos hAll, List.takeWhile_append_of_pos hAll]
    simp

/-- A word is split at its first equals sign. The value may be anything; the name must not be empty. -/
theorem pair?_eq_some_iff {word name value : String} :
    pair? word = some (name, value) ↔ name ≠ "" ∧ '=' ∉ name.toList ∧ word = name ++ "=" ++ value := by
  have hWord : word = name ++ "=" ++ value ↔ word.toList = name.toList ++ '=' :: value.toList := by
    rw [← String.toList_inj, String.toList_append, String.toList_append, List.append_assoc]
    rfl
  have hEmpty : name ≠ "" ↔ name.toList ≠ [] := by
    rw [Ne, ← String.toList_inj]
    rfl
  rw [hWord, hEmpty, ← splitEquals_eq_iff]
  unfold pair?
  constructor
  · intro h
    split at h
    · cases h
    · cases h
    · rename_i first rest hName hSplit
      cases h
      rw [String.toList_ofList, String.toList_ofList]
      exact ⟨hName, hSplit⟩
  · rintro ⟨hName, hSplit⟩
    rw [hSplit]
    cases hChars : name.toList with
    | nil => exact absurd hChars hName
    | cons c rest =>
      dsimp only
      rw [← hChars, String.ofList_toList, String.ofList_toList]

theorem mapM_pair?_eq_some_iff {words : List String} {pairs : List (String × String)} :
    words.mapM pair? = some pairs ↔ (∀ pair ∈ pairs, pair.1 ≠ "" ∧ '=' ∉ pair.1.toList) ∧
      words = pairs.map fun pair => pair.1 ++ "=" ++ pair.2 := by
  induction words generalizing pairs with
  | nil =>
    cases pairs <;> simp
  | cons word rest ih =>
    simp only [List.mapM_cons, Option.bind_eq_bind, Option.bind_eq_some_iff, Option.pure_def,
      Option.some.injEq, ih]
    cases pairs with
    | nil => simp
    | cons pair others =>
      rw [List.forall_mem_cons, List.map_cons, List.cons.injEq]
      constructor
      · rintro ⟨first, hFirst, _, ⟨hNames, hWords⟩, hPairs⟩
        cases hPairs
        obtain ⟨hName, hMark, hWord⟩ := pair?_eq_some_iff.mp hFirst
        exact ⟨⟨⟨hName, hMark⟩, hNames⟩, hWord, hWords⟩
      · rintro ⟨⟨⟨hName, hMark⟩, hNames⟩, hWord, hWords⟩
        exact ⟨pair, pair?_eq_some_iff.mpr ⟨hName, hMark, hWord⟩, others, ⟨hNames, hWords⟩, rfl⟩

/-! ## Values -/

/-- Every option that was given has a value that is one. -/
def Sound (s : Scan) : Prop :=
  ∀ opt value, (opt, value) ∈ s.given ++ s.above → accepts opt value = true

theorem Sound.value? {opt : Opt} {value : String} (h : s.Sound) (hValue : s.value? opt = some value) :
    accepts opt value = true := by
  obtain ⟨front, back, hGiven, -⟩ := List.lookup_eq_some_iff.mp hValue
  exact h opt value (by rw [hGiven]; simp)

theorem Sound.give {opt : Opt} {value : String} (h : s.Sound) (hGive : s.give opt value = .ok s') :
    s'.Sound := by
  unfold Scan.give at hGive
  split at hGive
  · cases hGive
  · split at hGive
    · cases hGive
    · split at hGive
      · cases hGive
      · rename_i hAccepted
        cases hGive
        rw [Bool.or_eq_true, not_or, Bool.not_eq_true', Bool.not_eq_false] at hAccepted
        intro other text hMem
        rcases List.mem_cons.mp hMem with hNew | hOld
        · cases hNew
          exact hAccepted.2
        · exact h other text hOld

theorem Sound.descend (h : s.Sound) (level : Level) : (s.descend level).Sound := h

theorem Sound.place {word : String} (h : s.Sound) (hPlace : s.place word = .ok s') : s'.Sound := by
  unfold Scan.place at hPlace
  split at hPlace
  · cases hPlace
    exact h
  · cases hPlace

theorem Sound.placeAll {words : List String} (h : s.Sound) (hPlace : s.placeAll words = .ok s') :
    s'.Sound := by
  unfold Scan.placeAll at hPlace
  induction words generalizing s with
  | nil =>
    cases hPlace
    exact h
  | cons word rest ih =>
    rw [List.foldlM_cons] at hPlace
    cases hFirst : s.place word with
    | error stop =>
      rw [hFirst] at hPlace
      cases hPlace
    | ok next =>
      rw [hFirst] at hPlace
      exact ih (h.place hFirst) hPlace

/-- What has been read where a word has led to. -/
def Next.scan : Next → Scan
  | ready s | awaiting s _ => s

variable {next : Next}

/-- An option that is given leads to a scan that is ready. -/
theorem Sound.give_map {opt : Opt} {value : String} (h : s.Sound)
    (hGive : (s.give opt value).map .ready = .ok next) : next.scan.Sound := by
  cases hValue : s.give opt value with
  | error stop =>
    rw [hValue] at hGive
    cases hGive
  | ok s' =>
    rw [hValue] at hGive
    cases hGive
    exact h.give hValue

theorem Sound.readLong {cs : List Char} (h : s.Sound) (hRead : s.readLong cs = .ok next) :
    next.scan.Sound := by
  unfold Scan.readLong at hRead
  dsimp only at hRead
  split at hRead
  · cases hRead
  · split at hRead
    · cases hRead
      exact h
    · exact h.give_map hRead
  · split at hRead
    · exact h.give_map hRead
    · cases hRead

theorem Sound.readShort {cs : List Char} (h : s.Sound) (hRead : s.readShort cs = .ok next) :
    next.scan.Sound := by
  induction cs generalizing s with
  | nil =>
    cases hRead
    exact h
  | cons c rest ih =>
    unfold Scan.readShort at hRead
    split at hRead
    · cases hRead
    · split at hRead
      · split at hRead
        · cases hRead
          exact h
        · exact h.give_map hRead
      · split at hRead
        · cases hRead
        · rename_i hGive
          exact ih (h.give hGive) hRead

theorem Sound.readWord {word : String} (h : s.Sound) (hRead : s.readWord word = .ok next) :
    next.scan.Sound := by
  unfold Scan.readWord at hRead
  split at hRead
  · exact h.readLong hRead
  · exact h.readShort hRead
  · -- the word leads to a level below, or stands in a place of the command
    unfold Scan.readPlain at hRead
    split at hRead
    · cases hRead
      exact h.descend _
    · cases hPlace : s.place word with
      | error stop =>
        rw [hPlace] at hRead
        cases hRead
      | ok s' =>
        rw [hPlace] at hRead
        cases hRead
        exact h.place hPlace

theorem Sound.read {words : List String} (h : next.scan.Sound) (hRead : Scan.read next words = .ok s) :
    s.Sound := by
  induction words generalizing next with
  | nil =>
    cases next with
    | ready s' =>
      cases hRead
      exact h
    | awaiting s' opt => cases hRead
  | cons word rest ih =>
    cases next with
    | awaiting s' opt =>
      unfold Scan.read at hRead
      split at hRead
      · split at hRead
        · cases hRead
        · rename_i hGive
          exact @ih (.ready _) (Sound.give h hGive) hRead
      · cases hRead
    | ready s' =>
      unfold Scan.read at hRead
      split at hRead
      · exact Sound.placeAll h hRead
      · split at hRead
        · cases hRead
        · split at hRead
          · cases hRead
          · rename_i hWord
            exact ih (Sound.readWord h hWord) hRead

/-- **Whatever was read has values that make sense.** -/
theorem sound_of_scan {words : List String} (h : scan words = .ok s) : s.Sound :=
  have hStart : (Next.ready start).scan.Sound := by simp [Sound, Next.scan, start]
  hStart.read h

/-! ## Keys and durations -/

theorem integer?_eq_some_iff {limit : Nat} {opt : Opt} {n : Int} :
    s.integer? limit opt = some n ↔
      ∃ text, s.value? opt = some text ∧ Decimal.readInt limit text.toList = .ok n := by
  unfold integer?
  simp only [Option.bind_eq_bind, Option.bind_eq_some_iff]
  refine exists_congr fun text => and_congr_right fun _ => ?_
  cases Decimal.readInt limit text.toList <;> simp

/-- A number that was read fits into its word. -/
theorem toInt_tenant {text : List Char} {n : Int} (h : Decimal.readInt (Nat.pow 2 31) text = .ok n) :
    (Int32.ofInt n).toInt = n := by
  obtain ⟨hLow, hHigh⟩ := Decimal.readInt_range (by decide) h
  exact Int32.toInt_ofInt_of_le (by simpa using hLow) (by simpa using hHigh)

theorem toInt_duration {text : List Char} {n : Int} (h : Decimal.readInt (Nat.pow 2 63) text = .ok n) :
    (Int64.ofInt n).toInt = n := by
  obtain ⟨hLow, hHigh⟩ := Decimal.readInt_range (by decide) h
  exact Int64.toInt_ofInt_of_le (by simpa using hLow) (by simpa using hHigh)

theorem key?_eq_some_iff : s.key? = some key ↔ s.Names key := by
  obtain ⟨user, tenant, feature⟩ := key
  unfold key?
  simp only [Option.bind_eq_bind, Option.bind_eq_some_iff, Option.pure_def, Option.some.injEq,
    Key.mk.injEq, integer?_eq_some_iff]
  constructor
  · rintro ⟨_, hUser, n, ⟨text, hText, hTenant⟩, _, hFeature, rfl, rfl, rfl⟩
    exact ⟨hUser, ⟨text, hText, by rw [toInt_tenant hTenant]; exact hTenant⟩, hFeature⟩
  · rintro ⟨hUser, ⟨text, hText, hTenant⟩, hFeature⟩
    exact ⟨user, hUser, tenant.toInt, ⟨text, hText, hTenant⟩, feature, hFeature, rfl,
      Int32.ofInt_toInt tenant, rfl⟩

/-! ## Commands -/

theorem data?_eq_some_iff {action? : Option DataAction} :
    s.data? action? = some (.data c) ↔ s.Names c.key ∧ action? = some c.action := by
  obtain ⟨key, action⟩ := c
  unfold data?
  simp only [Option.bind_eq_bind, Option.bind_eq_some_iff, Option.pure_def, Option.some.injEq,
    Command.data.injEq, DataCommand.mk.injEq, key?_eq_some_iff]
  constructor
  · rintro ⟨_, hKey, _, hAction, rfl, rfl⟩
    exact ⟨hKey, hAction⟩
  · rintro ⟨hKey, hAction⟩
    exact ⟨key, hKey, action, hAction, rfl, rfl⟩

theorem someWords?_eq_some_iff {words : List String} :
    s.someWords? = some words ↔ s.words ≠ [] ∧ words = s.words.reverse := by
  unfold someWords?
  cases hWords : s.words with
  | nil => simp
  | cons word rest => simp [eq_comm]

/-- A duration that was given is a number. -/
theorem Sound.duration_cases (h : s.Sound) :
    (∃ text n, s.value? .duration = some text ∧ Decimal.readInt (Nat.pow 2 63) text.toList = .ok n ∧
      s.integer? (Nat.pow 2 63) .duration = some n) ∨
    s.value? .duration = none ∧ s.integer? (Nat.pow 2 63) .duration = none := by
  cases hText : s.value? .duration with
  | none => exact Or.inr ⟨rfl, by rw [integer?, hText]; rfl⟩
  | some text =>
    have hAccepts : isInteger (Nat.pow 2 63) text = true := h.value? hText
    unfold isInteger at hAccepts
    split at hAccepts
    · rename_i n hRead
      exact Or.inl ⟨text, n, rfl, hRead, integer?_eq_some_iff.mpr ⟨text, hText, hRead⟩⟩
    · cases hAccepts

/-- What a command to lock asks for. -/
theorem means_lock {action : DataAction} (hSound : s.Sound) (hLevel : s.level = .verb .lock)
    (h : s.lock? = some action) : s.Means key (DataCommand.request? ⟨key, action⟩) := by
  unfold lock? at h
  split at h
  · cases h
  · rename_i hOne
    cases h
    unfold duration?
    cases hEndless : s.has .indefinite with
    | true =>
      -- no other duration was given
      rw [hEndless, Bool.true_and, Bool.not_eq_true, has, Option.isSome_eq_false_iff,
        Option.isNone_iff_eq_none] at hOne
      exact .lockIndefinitely hLevel hEndless hOne
    | false =>
      rcases hSound.duration_cases with ⟨text, n, hText, hRead, hNumber⟩ | ⟨hText, hNumber⟩
      · rw [if_neg Bool.false_ne_true, hNumber]
        refine .lockFor hLevel hEndless hText ?_
        rw [toInt_duration hRead]
        exact hRead
      · rw [if_neg Bool.false_ne_true, hNumber]
        exact .lockUnsaid hLevel hEndless hText

/-- **A command makes the request that is meant.** -/
theorem means_of_command? (hSound : s.Sound) (h : s.command? = some (.data c)) :
    s.Names c.key ∧ s.Means c.key c.request? := by
  obtain ⟨key, action⟩ := c
  unfold command? at h
  split at h
  · cases h
  · cases h
  · cases h
  · rename_i hLevel
    split at h
    · obtain ⟨hKey, hAction⟩ := data?_eq_some_iff.mp h
      cases hAction
      exact ⟨hKey, .status hLevel⟩
    · obtain ⟨hKey, hAction⟩ := data?_eq_some_iff.mp h
      exact ⟨hKey, means_lock hSound hLevel hAction⟩
    · obtain ⟨hKey, hAction⟩ := data?_eq_some_iff.mp h
      cases hAction
      exact ⟨hKey, .unlock hLevel⟩
    · obtain ⟨hKey, hAction⟩ := data?_eq_some_iff.mp h
      cases hAction
      cases hName : s.value? .name with
      | none => exact ⟨hKey, .getAll hLevel hName⟩
      | some name => exact ⟨hKey, .getOne hLevel hName⟩
    · obtain ⟨hKey, hAction⟩ := data?_eq_some_iff.mp h
      simp only [Option.bind_eq_bind, Option.bind_eq_some_iff, Option.pure_def, Option.some.injEq,
        someWords?_eq_some_iff] at hAction
      obtain ⟨_, ⟨hSome, rfl⟩, pairs, hPairs, rfl⟩ := hAction
      obtain ⟨hNames, hWords⟩ := mapM_pair?_eq_some_iff.mp hPairs
      refine ⟨hKey, .set hLevel ?_ hNames hWords (get?_ofList pairs)⟩
      rintro rfl
      exact hSome (List.reverse_eq_nil_iff.mp hWords)
    · obtain ⟨hKey, hAction⟩ := data?_eq_some_iff.mp h
      simp only [Option.bind_eq_bind, Option.bind_eq_some_iff, Option.pure_def, Option.some.injEq,
        someWords?_eq_some_iff] at hAction
      obtain ⟨_, ⟨hSome, rfl⟩, rfl⟩ := hAction
      refine ⟨hKey, .delete hLevel hSome (nodup_distinct _) fun name => ?_⟩
      rw [mem_distinct, List.mem_reverse]
    · obtain ⟨hKey, hAction⟩ := data?_eq_some_iff.mp h
      cases hAction
      exact ⟨hKey, .clear hLevel⟩
    all_goals cases h

/-- **What has a meaning is a command.** -/
theorem exists_command? {request? : Option Request} (hKey : s.Names key) (h : s.Means key request?) :
    ∃ c, s.command? = some (.data c) ∧ c.key = key := by
  -- it is enough to know the action
  have hData : ∀ {action? : Option DataAction} {action : DataAction}, action? = some action →
      ∃ c, s.data? action? = some (.data c) ∧ c.key = key :=
    fun hAction => ⟨⟨key, _⟩, data?_eq_some_iff.mpr ⟨hKey, hAction⟩, rfl⟩
  have hOne : s.value? .duration = none → s.has .duration = false := by
    intro hText
    rw [has, hText]
    rfl
  unfold command?
  cases h with
  | status hLevel | unlock hLevel | getAll hLevel | getOne hLevel | clear hLevel =>
    simp only [hLevel]
    exact hData rfl
  | lockFor hLevel hEnd | lockUnsaid hLevel hEnd =>
    simp only [hLevel]
    refine hData (if_neg ?_)
    rw [hEnd]
    exact Bool.false_ne_true
  | lockIndefinitely hLevel hEndless hText =>
    simp only [hLevel]
    refine hData (if_neg ?_)
    rw [hOne hText, Bool.and_false]
    exact Bool.false_ne_true
  | @set pairs given hLevel hSome hNames hWords hGiven =>
    simp only [hLevel]
    have hThere : s.words ≠ [] := by
      intro hNone
      rw [hNone, List.reverse_nil] at hWords
      exact hSome (List.map_eq_nil_iff.mp hWords.symm)
    have hRead := someWords?_eq_some_iff.mpr ⟨hThere, rfl⟩
    have hPairs := mapM_pair?_eq_some_iff.mpr ⟨hNames, hWords⟩
    refine @hData _ (.setProperties pairs) ?_
    rw [hRead]
    show s.words.reverse.mapM pair? >>= _ = _
    rw [hPairs]
    rfl
  | delete hLevel hSome =>
    simp only [hLevel]
    have hRead := someWords?_eq_some_iff.mpr ⟨hSome, rfl⟩
    refine @hData _ (.deleteProperties s.words.reverse) ?_
    rw [hRead]
    rfl

end Scan

/-! ## Command lines -/

/-- The words of a command line ask for this on a key, and for an answer in this format. -/
def Asked (words : List String) (key : Key) (request? : Option Request) (format : Format) : Prop :=
  ∃ s, scan words = .ok s ∧ s.Names key ∧ s.Means key request? ∧
    (format = .json ↔ s.value? .format = some "json")

variable {words : List String} {i : Invocation} {c : DataCommand} {key : Key} {format : Format}

/-- The format of an answer, as it is read. -/
theorem format_iff (value? : Option String) :
    (if value? = some "json" then Format.json else Format.text) = .json ↔ value? = some "json" := by
  split <;> simp_all

/-- **A command line that is accepted asks for what its command does.** -/
theorem asked_of_ofWords (hWords : Invocation.ofWords words = .ok i) (hCommand : i.command = .data c) :
    Asked words c.key c.request? i.format := by
  unfold Invocation.ofWords at hWords
  split at hWords
  · cases hWords
  · rename_i s hScan
    split at hWords
    · rename_i found hFound
      cases hWords
      simp only [Invocation.ofScan?, Option.bind_eq_bind, Option.bind_eq_some_iff, Option.pure_def,
        Option.some.injEq] at hFound
      obtain ⟨command, hRead, rfl⟩ := hFound
      cases hCommand
      obtain ⟨hKey, hMeans⟩ := Scan.means_of_command? (Scan.sound_of_scan hScan) hRead
      exact ⟨s, hScan, hKey, hMeans, format_iff _⟩
    · cases hWords

/-- **A command line that asks for something is accepted.** -/
theorem exists_ofWords {request? : Option Request} (h : Asked words key request? format) :
    ∃ i c, Invocation.ofWords words = .ok i ∧ i.command = .data c ∧ c.key = key ∧
      i.format = format := by
  obtain ⟨s, hScan, hKey, hMeans, hFormat⟩ := h
  obtain ⟨c, hRead, hSame⟩ := Scan.exists_command? hKey hMeans
  have hInvocation : Invocation.ofScan? s = some ⟨.data c,
      if s.value? .format = some "json" then .json else .text, s.has .quiet,
      (s.value? .database).map Path.mk⟩ := by
    rw [Invocation.ofScan?, hRead]
    rfl
  refine ⟨_, c, by rw [Invocation.ofWords, hScan]; simp only [hInvocation]; rfl, rfl, hSame, ?_⟩
  have hSameFormat := (format_iff (s.value? .format)).trans hFormat.symm
  cases format with
  | json => exact hSameFormat.mpr rfl
  | text =>
    rw [if_neg fun hJson => ?_]
    exact nomatch hFormat.mpr hJson

end Latch.CommandLine
