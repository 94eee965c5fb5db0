import Latch.Proofs.Properties.MergeLaw

/-!
# The order of entries

A property set keeps its entries in some order, and a set of names is a list. What is asked of the store
must not depend on that: batches of writes go by the byte order of the names, and batches of removals,
which do not, come to the same store in every order.

* `Properties.Same` — the same entries, in whatever order;
* `Store.Mishaps` — which statements fail, chosen by what they are: by kind, key, name and value;
* `Store.attemptAmid` — an action on a store whose statements fail so;
* `SameResult` — results of a merge that differ in the order of entries at most;
* `Store.PermitsRemoval` — the store lets a property go;
* `Store.withoutProperties` — a store without the properties of a key whose names pass a test.

Main results:

* `Properties.Same.inOrder_eq` — the byte order of names leaves no choice;
* `PropertyDiff.compute_same` — a diff depends on the entries alone;
* `attempt_setProperties_same` — two orders of a set lead to the same statements;
* `Store.runAmid_deleteAll_iff` — when a batch of removals gets through, and what it leaves;
* `entry_order_unobservable` — the order of entries makes no difference to any request.
-/

namespace Latch

open RecordCall (Attempt)

variable {p q incoming existing existing' : Properties} {key : Key} {name : String}

/-! ## Property sets -/

namespace Properties

/-- The same entries, in whatever order. -/
def Same (p q : Properties) : Prop := p.entries.Perm q.entries

theorem Same.get?_eq (h : p.Same q) : p.get? = q.get? := by
  funext name
  apply Option.ext
  intro value
  rw [get?_eq_some_iff, get?_eq_some_iff]
  exact h.mem_iff

theorem Same.isEmpty_eq (h : p.Same q) : p.isEmpty = q.isEmpty := List.Perm.isEmpty_eq h

theorem Same.filter (h : p.Same q) (keep : String → Bool) : (p.filter keep).Same (q.filter keep) :=
  List.Perm.filter (fun entry : String × String => keep entry.1) h

/-- **The byte order of names leaves no choice**: sets of the same entries list them alike. -/
theorem Same.inOrder_eq (h : p.Same q) : p.inOrder = q.inOrder := by
  have hPerm : p.inOrder.Perm q.inOrder :=
    ((ByteOrder.perm_inOrder Prod.fst p.entries).trans h).trans
      (ByteOrder.perm_inOrder Prod.fst q.entries).symm
  -- two entries that come before each other have one name, and a name has one value
  have hUnique : ∀ a b : String × String, a ∈ p.inOrder → b ∈ q.inOrder →
      ByteOrder.le a.1 b.1 = true → ByteOrder.le b.1 a.1 = true → a = b := by
    rintro ⟨first, value⟩ ⟨second, text⟩ hFirst hSecond hLe hGe
    have hName : first = second := ByteOrder.le_antisymm hLe hGe
    subst hName
    have hValue : q.get? first = some value := mem_inOrder.mp (hPerm.mem_iff.mp hFirst)
    have hText : q.get? first = some text := mem_inOrder.mp hSecond
    cases hValue.symm.trans hText
    rfl
  exact List.Perm.eq_of_pairwise hUnique (ByteOrder.pairwise_inOrder Prod.fst p.entries)
    (ByteOrder.pairwise_inOrder Prod.fst q.entries) hPerm

end Properties

namespace PropertyDiff

/-- Both halves have the same entries, in whatever order. -/
structure Same (diff diff' : PropertyDiff) : Prop where
  toAdd : diff.toAdd.Same diff'.toAdd
  toUpdate : diff.toUpdate.Same diff'.toUpdate

/-- **A diff depends on the entries alone**, of the set and of what is there. -/
theorem compute_same (h : p.Same q) (hExisting : existing.Same existing') :
    (compute p existing).Same (compute q existing') := by
  have hContains : existing.contains = existing'.contains := by
    funext name
    rw [Properties.contains_eq, Properties.contains_eq, hExisting.get?_eq]
  refine ⟨?_, ?_⟩
  · simp only [compute, hContains]
    exact h.filter _
  · simp only [compute, hContains]
    exact h.filter _

end PropertyDiff

/-! ## Stores whose statements fail -/

/-- How a statement fails. -/
structure Store.Mishap where
  fault : Store.Fault
  /-- Whether the statement takes effect all the same. -/
  hasEffect : Bool

/-- Which statements fail. A statement has a kind, a key, and a name where it is about one, so any of
these can decide. -/
abbrev Store.Mishaps : Type := Store.Statement → Option Store.Mishap

namespace Store

/-- Answers a statement, or lets it fail. -/
def executeAmid (mishaps : Mishaps) (st : Statement) (s : Store) : st.Reply × Store :=
  match mishaps st with
  | none => execute st s
  | some mishap => (.error mishap.fault, if mishap.hasEffect then (execute st s).2 else s)

def runAmid {α : Type} (mishaps : Mishaps) (script : Script α) (s : Store) : α × Store :=
  script.run (executeAmid mishaps) s

/-- Carries out an action, some of whose statements fail. -/
def attemptAmid {α : Type} (mishaps : Mishaps) (now : Millis) (x : Action α) (s : Store) :
    Except Error α × Store :=
  s.runAmid mishaps (Action.attempt now x).run

/-- Without mishaps this is what an action does anyway. -/
theorem attemptAmid_none {α : Type} (now : Millis) (x : Action α) (s : Store) :
    s.attemptAmid (fun _ => none) now x = x.run.run (Effect.answer now) s :=
  run_attempt x s

theorem runAmid_map {α β : Type} (mishaps : Mishaps) (f : α → β) (x : RecordCall.Attempt α)
    (s : Store) :
    s.runAmid mishaps (f <$> x).run =
      ((s.runAmid mishaps x.run).1.map f, (s.runAmid mishaps x.run).2) := by
  have hMap : (f <$> x).run = x.run.bind fun result => .done (result.map f) := by
    rw [map_eq_pure_bind]
    refine congrArg (Program.bind x.run) (funext fun result => ?_)
    cases result <;> rfl
  rw [runAmid, hMap, Program.run_bind]
  rfl

end Store

/-! ## Merges and batches of writes -/

/-- Results that nobody can tell apart: the same error, or diffs of the same sets. -/
inductive SameResult : Except Error PropertyDiff → Except Error PropertyDiff → Prop
  | ok {diff diff' : PropertyDiff} (hSame : diff.Same diff') : SameResult (.ok diff) (.ok diff')
  | error (error : Error) : SameResult (.error error) (.error error)

theorem mergeWrites_same (h : p.Same q) (stored : String → Option String) :
    mergeWrites p stored = mergeWrites q stored := by
  rw [mergeWrites, mergeWrites, (h.filter _).inOrder_eq, (h.filter _).inOrder_eq]

/-- **Two orders of a set lead to the same statements**: the requests differ only in the diff that is
computed of what was read. -/
theorem attempt_setProperties_same (h : p.Same q) (enabled : Bool) (now : Millis) (key : Key) :
    ∃ x : Attempt Properties,
      Action.attempt now (Manager.setProperties enabled key p) =
        (fun existing => PropertyDiff.compute p existing) <$> x ∧
      Action.attempt now (Manager.setProperties enabled key q) =
        (fun existing => PropertyDiff.compute q existing) <$> x := by
  cases enabled with
  | false => exact ⟨throw .disabled, rfl, rfl⟩
  | true =>
    cases hEmpty : p.isEmpty with
    | true =>
      -- no statement is made, and both diffs are empty
      have hEmpty' : q.isEmpty = true := h.isEmpty_eq.symm.trans hEmpty
      refine ⟨pure ∅, ?_, ?_⟩
      · rw [attempt_setProperties_of_isEmpty now key hEmpty, map_pure,
          PropertyDiff.compute_of_isEmpty hEmpty]
      · rw [attempt_setProperties_of_isEmpty now key hEmpty', map_pure,
          PropertyDiff.compute_of_isEmpty hEmpty']
    | false =>
      have hEmpty' : q.isEmpty = false := h.isEmpty_eq.symm.trans hEmpty
      -- the read, and the writes that it calls for, without the diff at the end
      let statements : Attempt Properties := do
        let rows ← RecordCall.statement (.readProperties key) (.selectProperties key)
        let _ ← writeAll key (mergeWrites p (Properties.ofList rows).get?)
        return Properties.ofList rows
      refine ⟨statements, ?_, ?_⟩
      · rw [attempt_setProperties now key hEmpty]
        simp only [statements, map_bind, map_pure]
      · rw [attempt_setProperties now key hEmpty']
        simp only [statements, map_bind, map_pure, mergeWrites_same h]

theorem attempt_addProperties_same (h : p.Same q) (enabled : Bool) (now : Millis) (key : Key) :
    Action.attempt now (Manager.addProperties enabled key p) =
      Action.attempt now (Manager.addProperties enabled key q) := by
  cases enabled with
  | false => rfl
  | true =>
    have hAdd : ∀ r : Properties, Action.attempt now (Manager.addProperties true key r) =
        RecordCall.addAll key r.inOrder := fun r => attempt_record (.addProperties key r)
    rw [hAdd, hAdd, h.inOrder_eq]

theorem attempt_updateProperties_same (h : p.Same q) (enabled : Bool) (now : Millis) (key : Key) :
    Action.attempt now (Manager.updateProperties enabled key p) =
      Action.attempt now (Manager.updateProperties enabled key q) := by
  cases enabled with
  | false => rfl
  | true =>
    have hUpdate : ∀ r : Properties, Action.attempt now (Manager.updateProperties true key r) =
        RecordCall.updateAll key r.inOrder := fun r => attempt_record (.updateProperties key r)
    rw [hUpdate, hUpdate, h.inOrder_eq]

/-- A merge has the same result and leaves the same store. -/
theorem Store.attemptAmid_setProperties_same (h : p.Same q) (mishaps : Store.Mishaps)
    (enabled : Bool) (now : Millis) (key : Key) (s : Store) :
    ∃ result result' s',
      s.attemptAmid mishaps now (Manager.setProperties enabled key p) = (result, s') ∧
      s.attemptAmid mishaps now (Manager.setProperties enabled key q) = (result', s') ∧
      SameResult result result' := by
  obtain ⟨x, hp, hq⟩ := attempt_setProperties_same h enabled now key
  rw [attemptAmid, attemptAmid, hp, hq, runAmid_map, runAmid_map]
  refine ⟨_, _, _, rfl, rfl, ?_⟩
  cases (s.runAmid mishaps x.run).1 with
  | error error => exact .error error
  | ok existing => exact .ok (PropertyDiff.compute_same h (List.Perm.refl _))

/-! ## Batches of removals -/

namespace Store

variable {s s' : Store} {mishaps : Mishaps} {test other : String → Bool} {names : List String}

/-- A store without the properties of a key whose names pass a test. -/
def withoutProperties (s : Store) (key : Key) (test : String → Bool) : Store :=
  { s with tables := { s.tables with
    properties := s.tables.properties.map (·.deleteWhere fun k _ => decide (k.1 = key) && test k.2) } }

/-- The store is able to let a property go. A name that is not there is let go anyway. -/
structure PermitsRemoval (s : Store) (key : Key) (name : String) : Prop where
  isOpen : s.closed = false
  hasProperties : s.tables.properties.isSome = true
  permits : s.property? key name ≠ none → s.tables.forbids .properties .delete (some name) = false

theorem Table.deleteWhere_deleteWhere {κ α : Type} (t : Table κ α) (test other : κ → α → Bool) :
    (t.deleteWhere test).deleteWhere other = t.deleteWhere fun k v => test k v || other k v := by
  simp only [Table.deleteWhere, List.filter_filter, Table.mk.injEq, and_true]
  refine List.filter_congr fun row _ => ?_
  rw [Bool.not_or, Bool.and_comm]

theorem Table.deleteWhere_none {κ α : Type} (t : Table κ α) {test : κ → α → Bool}
    (hNone : ∀ k v, test k v = false) : t.deleteWhere test = t := by
  simp [Table.deleteWhere, hNone]

theorem withoutProperties_none (s : Store) (key : Key) (hNone : ∀ n, test n = false) :
    s.withoutProperties key test = s := by
  have hSame : ∀ properties : PropertyTable,
      (properties.deleteWhere fun k _ => decide (k.1 = key) && test k.2) = properties := by
    intro properties
    exact Table.deleteWhere_none properties fun k _ => by rw [hNone, Bool.and_false]
  simp [withoutProperties, hSame]

/-- Removing one after another is removing at once. -/
theorem withoutProperties_again (s : Store) (key : Key) (test other : String → Bool) :
    (s.withoutProperties key test).withoutProperties key other =
      s.withoutProperties key fun n => test n || other n := by
  simp [withoutProperties, Option.map_map, Function.comp_def, Table.deleteWhere_deleteWhere,
    Bool.and_or_distrib_left]

theorem property?_withoutProperties (s : Store) (key : Key) (test : String → Bool) (k : Key)
    (n : String) : (s.withoutProperties key test).property? k n =
      if k = key ∧ test n = true then none else s.property? k n := by
  simp only [property?, withoutProperties]
  cases s.tables.properties with
  | none => simp
  | some properties =>
    rw [Option.map_some, Option.bind_some, Option.bind_some, Table.get?_deleteWhere]
    by_cases hTest : k = key ∧ test n = true
    · rw [if_pos hTest]
      simp [hTest.1, hTest.2]
    · rw [if_neg hTest]
      have hKept : (!(decide (k = key) && test n)) = true := by
        simpa [Decidable.imp_iff_not_or] using hTest
      cases properties.get? (k, n) <;> simp [hKept]

namespace PermitsRemoval

theorem of_ready (h : s.PropertiesReady) (key : Key) (name : String) : s.PermitsRemoval key name :=
  ⟨h.isOpen, h.hasProperties, fun _ => h.permits .delete name⟩

/-- What was removed before makes no difference, or makes the removal easier. -/
theorem withoutProperties_iff (h : ∀ n, test n = true → s.PermitsRemoval key n) :
    (s.withoutProperties key test).PermitsRemoval key name ↔ s.PermitsRemoval key name := by
  constructor
  · intro hAfter
    by_cases hTest : test name = true
    · exact h name hTest
    · refine ⟨hAfter.isOpen, ?_, fun hThere => hAfter.permits ?_⟩
      · simpa [withoutProperties] using hAfter.hasProperties
      · rwa [property?_withoutProperties, if_neg fun hBoth => hTest hBoth.2]
  · intro hBefore
    refine ⟨hBefore.isOpen, ?_, fun hThere => hBefore.permits ?_⟩
    · simpa [withoutProperties] using hBefore.hasProperties
    · rw [property?_withoutProperties] at hThere
      split at hThere
      · exact absurd rfl hThere
      · exact hThere

end PermitsRemoval

/-- A removal is refused only for a name that is there and that a guard watches. -/
theorem anyWhere_guarded (t : Tables) (properties : PropertyTable) (key : Key) (name : String) :
    (properties.anyWhere fun k _ => (decide (k.1 = key) && decide (k.2 = name)) &&
        t.forbids .properties .delete (some k.2)) =
      (properties.get? (key, name)).any fun _ => t.forbids .properties .delete (some name) := by
  rw [← Table.anyWhere_key]
  refine congrArg properties.anyWhere (funext fun k => funext fun _ => ?_)
  obtain ⟨own, other⟩ := k
  by_cases hKey : own = key
  · by_cases hName : other = name
    · simp [hKey, hName]
    · simp [hName]
  · simp [hKey]

/-- A removal succeeds exactly if the store permits it, and takes away one name. -/
theorem execute_deleteProperty_iff :
    execute (.deleteProperty key name) s = (.ok (), s') ↔
      s.PermitsRemoval key name ∧ s' = s.withoutProperties key (· = name) := by
  constructor
  · intro h
    obtain ⟨hOpen, t, hTables, rfl⟩ := execute_of_ok h
    simp only [Tables.execute, Tables.deletePropertiesWhere] at hTables
    split at hTables
    · cases hTables
    · rename_i properties hProperties
      rw [anyWhere_guarded, ← property?_of_table hProperties] at hTables
      split at hTables
      · cases hTables
      · rename_i hFree
        cases hTables
        refine ⟨⟨hOpen, by rw [hProperties]; rfl, fun hThere => ?_⟩, ?_⟩
        · obtain ⟨value, hValue⟩ := Option.ne_none_iff_exists'.mp hThere
          simpa [hValue] using hFree
        · simp [withoutProperties, hProperties]
  · rintro ⟨hPermits, rfl⟩
    obtain ⟨properties, hProperties⟩ := Option.isSome_iff_exists.mp hPermits.hasProperties
    have hFree : ((s.property? key name).any fun _ =>
        s.tables.forbids .properties .delete (some name)) = false := by
      cases hThere : s.property? key name with
      | none => rfl
      | some value => exact hPermits.permits (by simp [hThere])
    have hTables : s.tables.execute (.deleteProperty key name) =
        .ok ((), (s.withoutProperties key (· = name)).tables) := by
      simp only [Tables.execute, Tables.deletePropertiesWhere, hProperties]
      rw [anyWhere_guarded, ← property?_of_table hProperties, hFree]
      simp [withoutProperties, hProperties]
    exact execute_eq_ok hPermits.isOpen hTables

theorem executeAmid_deleteProperty_iff :
    executeAmid mishaps (.deleteProperty key name) s = (.ok (), s') ↔
      (mishaps (.deleteProperty key name) = none ∧ s.PermitsRemoval key name) ∧
        s' = s.withoutProperties key (· = name) := by
  rw [and_assoc, ← execute_deleteProperty_iff, executeAmid]
  cases mishaps (.deleteProperty key name) with
  | none => simp
  | some mishap => simp

/-- A batch of removals goes on with what the first one leaves, if that one succeeds. -/
theorem runAmid_deleteAll_cons {rest : List String} :
    s.runAmid mishaps (RecordCall.deleteAll key (name :: rest)).run = (.ok (), s') ↔
      (mishaps (.deleteProperty key name) = none ∧ s.PermitsRemoval key name) ∧
        (s.withoutProperties key (· = name)).runAmid mishaps (RecordCall.deleteAll key rest).run =
          (.ok (), s') := by
  have hFirst : ∀ s₁, executeAmid mishaps (.deleteProperty key name) s = (.ok (), s₁) ↔
      (mishaps (.deleteProperty key name) = none ∧ s.PermitsRemoval key name) ∧
        s₁ = s.withoutProperties key (· = name) := fun _ => executeAmid_deleteProperty_iff
  rw [runAmid, RecordCall.deleteAll, run_statement_bind, Program.run]
  cases hExecute : executeAmid mishaps (.deleteProperty key name) s with
  | mk reply s₁ =>
    rw [hExecute] at hFirst
    cases reply with
    | ok result =>
      obtain ⟨hPermits, rfl⟩ := (hFirst s₁).mp rfl
      simp only [hPermits, and_self, true_and]
      rfl
    | error fault =>
      -- a failure ends the batch, and comes only if the removal was not permitted
      have hRefused : ¬ (mishaps (.deleteProperty key name) = none ∧ s.PermitsRemoval key name) :=
        fun hPermits => by simpa using (hFirst _).mpr ⟨hPermits, rfl⟩
      simp [Program.run, hRefused]

/-- **When a batch of removals gets through**: no name of it fails, and the store permits them all. It
leaves the store without these names, in whatever order they come. -/
theorem runAmid_deleteAll_iff :
    s.runAmid mishaps (RecordCall.deleteAll key names).run = (.ok (), s') ↔
      (∀ n ∈ names, mishaps (.deleteProperty key n) = none ∧ s.PermitsRemoval key n) ∧
        s' = s.withoutProperties key fun n => decide (n ∈ names) := by
  induction names generalizing s with
  | nil =>
    have hSame : (s.withoutProperties key fun n => decide (n ∈ ([] : List String))) = s :=
      withoutProperties_none s key fun n => by simp
    rw [hSame]
    show ((.ok (), s) : Except Error Unit × Store) = (.ok (), s') ↔ _
    simp [eq_comm]
  | cons name rest ih =>
    rw [runAmid_deleteAll_cons, List.forall_mem_cons]
    rw [ih]
    have hBoth : ((s.withoutProperties key (· = name)).withoutProperties key
        fun n => decide (n ∈ rest)) = s.withoutProperties key fun n => decide (n ∈ name :: rest) := by
      rw [withoutProperties_again]
      refine congrArg (s.withoutProperties key) (funext fun n => ?_)
      simp
    -- what the store permits before the first removal, it permits after it
    rw [hBoth, ← and_assoc]
    refine and_congr_left fun _ => and_congr_right fun hFirst => ?_
    have hOne : ∀ n, decide (n = name) = true → s.PermitsRemoval key n := by
      intro n hName
      rw [of_decide_eq_true hName]
      exact hFirst.2
    simp only [PermitsRemoval.withoutProperties_iff hOne]

/-- What is left of the maps of a store. -/
theorem maps_withoutProperties (s : Store) (key : Key) (test : String → Bool) :
    (s.withoutProperties key test).maps =
      s.maps.setProperties key fun n => if test n = true then none else s.property? key n := by
  have hProperties : (s.withoutProperties key test).property? =
      Function.update s.property? key fun n => if test n = true then none else s.property? key n := by
    funext k n
    rw [property?_withoutProperties]
    by_cases hk : k = key
    · subst hk
      simp
    · simp [hk]
  show (⟨s.lock?, (s.withoutProperties key test).property?⟩ : Maps) = _
  rw [hProperties]
  rfl

end Store

theorem attemptAmid_deleteProperties (mishaps : Store.Mishaps) (enabled : Bool) (now : Millis)
    (key : Key) (names : List String) (s : Store) :
    s.attemptAmid mishaps now (Manager.deleteProperties enabled key names) =
      if enabled then s.runAmid mishaps (RecordCall.deleteAll key names).run
      else (.error .disabled, s) := by
  cases enabled with
  | false => rfl
  | true =>
    have hDelete : Action.attempt now (Manager.deleteProperties true key names) =
        RecordCall.deleteAll key names := attempt_record (.deleteProperties key names)
    rw [Store.attemptAmid, hDelete, if_pos rfl]

/-- **The order of entries makes no difference.** Two property sets have the same entries in different
orders, and any of the statements of a request may fail, before or after it has taken effect.

* Setting either set gives the same result and leaves the same store: the same error, which names what
  could not be written, or diffs of the same entries.
* Adding either set, or updating by it, gives the same result and leaves the same store.
* Diffs against what is there are the same sets, in whatever order that is listed either.
* If removing names succeeds, then so does removing them in another order, and the same store is left:
  without the properties of these names, and with all other maps and locks as they were. It succeeds if
  no statement fails. -/
theorem entry_order_unobservable {p q : Properties} (h : p.entries.Perm q.entries)
    (mishaps : Store.Mishaps) (enabled : Bool) (now : Millis) (key : Key) (s : Store) :
    (∃ result result' s',
      s.attemptAmid mishaps now (Manager.setProperties enabled key p) = (result, s') ∧
      s.attemptAmid mishaps now (Manager.setProperties enabled key q) = (result', s') ∧
      SameResult result result') ∧
    s.attemptAmid mishaps now (Manager.addProperties enabled key p) =
      s.attemptAmid mishaps now (Manager.addProperties enabled key q) ∧
    s.attemptAmid mishaps now (Manager.updateProperties enabled key p) =
      s.attemptAmid mishaps now (Manager.updateProperties enabled key q) ∧
    (∀ existing existing' : Properties, existing.entries.Perm existing'.entries →
      (PropertyDiff.compute p existing).Same (PropertyDiff.compute q existing')) ∧
    ∀ names names' : List String, names.Perm names' →
      (∀ s', s.attemptAmid mishaps now (Manager.deleteProperties enabled key names) = (.ok (), s') →
        s.attemptAmid mishaps now (Manager.deleteProperties enabled key names') = (.ok (), s') ∧
        s'.maps = s.maps.setProperties key fun name =>
          if name ∈ names then none else s.property? key name) ∧
      (enabled = true → s.PropertiesReady →
        (∀ name ∈ names, mishaps (.deleteProperty key name) = none) →
        ∃ s', s.attemptAmid mishaps now (Manager.deleteProperties enabled key names) =
          (.ok (), s')) := by
  refine ⟨Store.attemptAmid_setProperties_same h mishaps enabled now key s, ?_, ?_,
    fun existing existing' hExisting => PropertyDiff.compute_same h hExisting, ?_⟩
  · rw [Store.attemptAmid, attempt_addProperties_same h, Store.attemptAmid]
  · rw [Store.attemptAmid, attempt_updateProperties_same h, Store.attemptAmid]
  · intro names names' hNames
    simp only [attemptAmid_deleteProperties]
    refine ⟨fun s' hRun => ?_, fun hEnabled hReady hNone => ?_⟩
    · cases enabled with
      | false => simp at hRun
      | true =>
        rw [if_pos rfl, Store.runAmid_deleteAll_iff] at hRun ⊢
        obtain ⟨hAll, rfl⟩ := hRun
        -- whether a name is among them does not depend on their order
        have hSame : (fun n => decide (n ∈ names)) = fun n => decide (n ∈ names') := by
          funext n
          simp only [hNames.mem_iff]
        refine ⟨⟨fun n hn => hAll n (hNames.mem_iff.mpr hn), by rw [hSame]⟩, ?_⟩
        rw [Store.maps_withoutProperties]
        simp
    · simp only [hEnabled, if_true, Store.runAmid_deleteAll_iff]
      exact ⟨_, fun n hn => ⟨hNone n hn, .of_ready hReady key n⟩, rfl⟩

/-! The same three names in another order, on a store that has the name `b` and lets no write of `c`
succeed, although it takes effect. -/

def threeNamesSorted : Properties := .ofList [("a", "x"), ("b", "y"), ("c", "z")]

def failsAtC : Store.Mishaps
  | .insertProperty _ name _ => if name = "c" then some ⟨.closed, true⟩ else none
  | _ => none

theorem attemptAmid_threeNames :
    storedB.attemptAmid failsAtC 0
        (Manager.setProperties true ⟨"alice", 1, "sms-otp"⟩ threeNames) =
      (.error (.record (.addProperty ⟨"alice", 1, "sms-otp"⟩ "c") .storeClosed), twoAdded) := by
  rw [Store.attemptAmid, attempt_setProperties 0 _ rfl, Store.runAmid, run_statement_bind]
  have hWrites : (writeAll ⟨"alice", 1, "sms-otp"⟩
      (mergeWrites threeNames (Properties.ofList [("b", "1")]).get?) >>= fun _ =>
        pure (PropertyDiff.compute threeNames (Properties.ofList [("b", "1")]))).run.run
      (Store.executeAmid failsAtC) storedB =
      (.error (.record (.addProperty ⟨"alice", 1, "sms-otp"⟩ "c") .storeClosed), twoAdded) := by
    rw [mergeWrites_threeNames]
    rfl
  exact hWrites

theorem entry_order_unobservable_threeNames :
    threeNames.entries.Perm threeNamesSorted.entries ∧
    threeNames.entries ≠ threeNamesSorted.entries ∧
    storedB.attemptAmid failsAtC 0
        (Manager.setProperties true ⟨"alice", 1, "sms-otp"⟩ threeNamesSorted) =
      (.error (.record (.addProperty ⟨"alice", 1, "sms-otp"⟩ "c") .storeClosed), twoAdded) ∧
    ∃ s', storedB.attemptAmid failsAtC 0
        (Manager.deleteProperties true ⟨"alice", 1, "sms-otp"⟩ ["a", "b"]) = (.ok (), s') ∧
      storedB.attemptAmid failsAtC 0
        (Manager.deleteProperties true ⟨"alice", 1, "sms-otp"⟩ ["b", "a"]) = (.ok (), s') ∧
      s'.property? ⟨"alice", 1, "sms-otp"⟩ "b" = none := by
  have hPerm : threeNames.entries.Perm threeNamesSorted.entries := by decide
  have hReady : storedB.PropertiesReady := ⟨rfl, rfl, fun _ _ => rfl⟩
  obtain ⟨⟨result, result', s', hRun, hRun', hSame⟩, -, -, -, hDelete⟩ :=
    entry_order_unobservable hPerm failsAtC true 0 ⟨"alice", 1, "sms-otp"⟩ storedB
  obtain ⟨hOther, hSucceeds⟩ := hDelete ["a", "b"] ["b", "a"] (by decide)
  obtain ⟨left, hLeft⟩ := hSucceeds rfl hReady fun _ _ => rfl
  obtain ⟨hRight, hMaps⟩ := hOther left hLeft
  refine ⟨hPerm, by decide, ?_, left, hLeft, hRight, ?_⟩
  · -- the error of the one order is the error of the other
    rw [attemptAmid_threeNames] at hRun
    cases hRun
    cases hSame
    exact hRun'
  · exact (congrFun (congrArg (fun m => m.properties ⟨"alice", 1, "sms-otp"⟩) hMaps) "b").trans rfl

end Latch
