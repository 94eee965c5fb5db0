import Latch.Proofs.Properties.MergeLaw

/-!
# Adding names that are there already

A request to add properties writes one entry after another, in byte order of the names, and stops at
the first name that is stored already. So the names alone tell how far it gets: all entries are added
if no name is stored, and otherwise those whose names come before the least one that is.

* `joined` — the union of a map and a set, in which no value of the map changes;
* `Properties.before` — the entries whose names come before a name in byte order;
* `Collides` — a name is the least one that is both stored and to be added.

Main results:

* `Properties.mem_early_iff` — what stands before an entry in byte order;
* `Store.PropertiesReady.run_addProperties` — a request gets through, or stops at the least name that
  is there;
* `Trace.addProperties_keeps` — at no moment of a request has a value changed;
* `colliding_add_stops` — how a request ends, from the names alone.
-/

namespace Latch

open Program (Trace)

variable {map : String → Option String} {incoming : Properties} {key : Key} {name : String}

/-! ## Unions -/

/-- The union of a map and a set; a name that both have keeps its value. -/
def joined (map : String → Option String) (incoming : Properties) : String → Option String :=
  fun name => (map name).or (incoming.get? name)

/-- A set without names of the map is joined by overriding the map. -/
theorem overridden_eq_joined (h : ∀ name, incoming.get? name ≠ none → map name = none) :
    overridden incoming map = joined map incoming := by
  funext name
  rw [overridden, joined]
  cases hGet : incoming.get? name with
  | none => rw [Option.none_or, Option.or_none]
  | some value => rw [h name (by simp [hGet]), Option.none_or, Option.or_none]

/-! ## Entries in byte order -/

namespace Properties

/-- The entries whose names come before a name in byte order. -/
def before (p : Properties) (name : String) : Properties :=
  p.filter fun other => decide (ByteOrder.bytes other < ByteOrder.bytes name)

theorem get?_before (p : Properties) (name other : String) :
    (p.before name).get? other =
      if ByteOrder.bytes other < ByteOrder.bytes name then p.get? other else none := by
  simp only [before, get?_filter, decide_eq_true_eq]

variable {p : Properties} {value other text : String} {early late : List (String × String)}

/-- Entries further on have names that come later. -/
theorem bytes_lt_of_late (hSplit : p.inOrder = early ++ (name, value) :: late)
    (hLate : (other, text) ∈ late) : ByteOrder.bytes name < ByteOrder.bytes other := by
  have hOrder := ByteOrder.pairwise_inOrder Prod.fst p.entries
  have hNames := p.nodup_inOrder
  rw [← inOrder, hSplit] at hOrder
  rw [hSplit, List.map_append, List.map_cons] at hNames
  have hLe : ByteOrder.bytes name ≤ ByteOrder.bytes other := by
    simpa [ByteOrder.le] using
      (List.pairwise_cons.mp (List.pairwise_append.mp hOrder).2.1).1 (other, text) hLate
  have hNe : name ≠ other := by
    rintro rfl
    have hRest := (List.nodup_append.mp hNames).2.1
    exact (List.nodup_cons.mp hRest).1 (List.mem_map.mpr ⟨_, hLate, rfl⟩)
  exact List.not_le.mp fun hGe => hNe (ByteOrder.bytes_inj (List.le_antisymm hLe hGe))

/-- Entries before another one have names that come earlier. -/
theorem bytes_lt_of_early (hSplit : p.inOrder = early ++ (name, value) :: late)
    (hEarly : (other, text) ∈ early) : ByteOrder.bytes other < ByteOrder.bytes name := by
  obtain ⟨first, rest, rfl⟩ := List.append_of_mem hEarly
  rw [List.append_assoc, List.cons_append] at hSplit
  exact bytes_lt_of_late hSplit (List.mem_append_right _ (List.mem_cons_self ..))

/-- Before an entry stand exactly those whose names come before its name. -/
theorem mem_early_iff (hSplit : p.inOrder = early ++ (name, value) :: late) :
    (other, text) ∈ early ↔ (p.before name).get? other = some text := by
  have hMem : (other, text) ∈ p.inOrder ↔ p.get? other = some text := mem_inOrder
  rw [hSplit, List.mem_append, List.mem_cons] at hMem
  rw [get?_before]
  constructor
  · intro hEarly
    rw [if_pos (bytes_lt_of_early hSplit hEarly)]
    exact hMem.mp (Or.inl hEarly)
  · intro hGet
    split at hGet
    · rename_i hLt
      rcases hMem.mpr hGet with hEarly | hHere | hLate
      · exact hEarly
      · -- the entry itself does not come before itself
        cases hHere
        exact absurd hLt (List.lt_irrefl _)
      · exact absurd (List.le_of_lt hLt) (List.not_le.mpr (bytes_lt_of_late hSplit hLate))
    · cases hGet

end Properties

/-- A name is both stored and to be added, and the least one in byte order. -/
structure Collides (map : String → Option String) (incoming : Properties) (name : String) : Prop where
  isStored : map name ≠ none
  isIncoming : incoming.get? name ≠ none
  least : ∀ other, map other ≠ none → incoming.get? other ≠ none →
    ByteOrder.bytes name ≤ ByteOrder.bytes other

/-! ## Requests -/

/-- **A request to add properties gets through, or stops at the least name that is there.** -/
theorem Store.PropertiesReady.run_addProperties {s : Store} (h : s.PropertiesReady) (now : Millis)
    (key : Key) (incoming : Properties) :
    (∃ s', (Manager.addProperties true key incoming).run.run (Effect.answer now) s = (.ok (), s') ∧
      (∀ name, s.property? key name = none ∨ incoming.get? name = none) ∧
      s'.maps = s.maps.setProperties key (joined (s.property? key) incoming)) ∨
    ∃ name s', (Manager.addProperties true key incoming).run.run (Effect.answer now) s =
        (.error (.record (.addProperty key name) .uniqueViolation), s') ∧
      Collides (s.property? key) incoming name ∧
      s'.maps = s.maps.setProperties key (joined (s.property? key) (incoming.before name)) := by
  rcases h.run_addAll key incoming.nodup_inOrder with ⟨hNew, s', hRun, hRows⟩ |
    ⟨early, name, value, late, s', hSplit, hNew, hOld, hRun, hRows⟩
  · have hPerform : s.perform (.addProperties key incoming) = (.ok (), s') := hRun
    have hApart : ∀ name, incoming.get? name ≠ none → s.property? key name = none := by
      intro name hName
      obtain ⟨value, hValue⟩ := Option.ne_none_iff_exists'.mp hName
      exact hNew (name, value) (Properties.mem_inOrder.mpr hValue)
    rw [Overlaid, overlay_inOrder, overridden_eq_joined hApart] at hRows
    refine Or.inl ⟨s', hPerform, fun name => ?_, maps_of_properties rfl hPerform hRows⟩
    by_cases hName : incoming.get? name = none
    · exact Or.inr hName
    · exact Or.inl (hApart name hName)
  · have hPerform : s.perform (.addProperties key incoming) =
        (.error (.record (.addProperty key name) .uniqueViolation), s') := hRun
    have hEarly : ∀ other, (incoming.before name).get? other ≠ none →
        s.property? key other = none := by
      intro other hOther
      obtain ⟨text, hText⟩ := Option.ne_none_iff_exists'.mp hOther
      exact hNew (other, text) ((Properties.mem_early_iff hSplit).mpr hText)
    rw [Overlaid, overlay_eq_overridden fun _ _ => Properties.mem_early_iff hSplit,
      overridden_eq_joined hEarly] at hRows
    have hHere : incoming.get? name = some value :=
      Properties.mem_inOrder.mp (by rw [hSplit]; simp)
    refine Or.inr ⟨name, s', hPerform, ⟨hOld, by simp [hHere], fun other hStored hOther => ?_⟩,
      maps_of_properties rfl hPerform hRows⟩
    -- a name that came earlier would be among those that were added, and so new
    by_contra hLess
    refine hStored (hEarly other ?_)
    rwa [Properties.get?_before, if_pos (List.not_le.mp hLess)]

/-! ## Every moment of a request -/

/-- Every value that is stored stays what it is. -/
def Store.KeepsValues (s s' : Store) : Prop :=
  ∀ key name value, s.property? key name = some value → s'.property? key name = some value

/-- An insertion changes no value, whether it succeeds or not. -/
theorem Store.Statement.Answers.keepsValues {s s' : Store} {value : String}
    {reply : (Store.Statement.insertProperty key name value).Reply}
    (h : Answers (.insertProperty key name value) s reply s') : s.KeepsValues s' := by
  intro k other text hStored
  rcases h.after_cases with rfl | ⟨result, hExecute⟩
  · exact hStored
  · obtain ⟨hNew, hRows⟩ := Store.execute_insertProperty hExecute
    rw [hRows]
    by_cases hKey : k = key
    · subst hKey
      -- the name is new, so it is not the one that has a value
      have hOther : other ≠ name := by
        rintro rfl
        cases hNew.symm.trans hStored
      rwa [Function.update_self, Function.update_of_ne hOther]
    · rwa [Function.update_of_ne hKey]

theorem asks_addAll (key : Key) (entries : List (String × String)) :
    (RecordCall.addAll key entries).run.Asks fun st =>
      ∃ name value, st = .insertProperty key name value := by
  induction entries with
  | nil => trivial
  | cons entry rest ih =>
    refine Program.Asks.attempt_bind ⟨⟨entry.1, entry.2, rfl⟩, fun reply => ?_⟩ fun _ => ih
    cases reply <;> trivial

/-- **At no moment of a request to add properties has a value changed**, also if its statements
fail. -/
theorem Trace.addProperties_keeps {now : Millis} {s s' : Store}
    {es : List (Event Unit Store.Statement.Reply Store)}
    {p : Store.Script (Except Error Unit)}
    (h : Trace Store.Statement.Answers (· = ·) ()
      (Action.attempt now (Manager.addProperties true key incoming)).run s es p s') :
    s.KeepsValues s' := by
  have hScript : Action.attempt now (Manager.addProperties true key incoming) =
      RecordCall.addAll key incoming.inOrder := attempt_record (.addProperties key incoming)
  rw [hScript] at h
  refine (h.keeps (I := s.KeepsValues) (fun _ _ hEq hKept => hEq ▸ hKept) ?_
    fun _ _ _ hStored => hStored).2
  intro e he hKept
  obtain ⟨other, text, hInsert⟩ := h.asked (asks_addAll key incoming.inOrder) e he
  have hAnswer := h.answered e he
  obtain ⟨actor, question, reply, before, after⟩ := e
  cases hInsert
  exact fun k n value hStored => hAnswer.keepsValues k n value (hKept k n value hStored)

/-- **Adding stops at the first name that is there.** A store does not fail, and nobody else uses it
meanwhile.

* A request to add properties succeeds exactly if none of its names is stored. Then the stored map is
  the union of the two, and that is what is read from then on.
* Otherwise it fails, because of the least name in byte order that is stored and to be added, and its
  error names it. The stored map is then the old one and the entries whose names come before that one.
* Other keys, and all locks, are as they were.
* No value that was stored is ever changed: not at the end, and not at any moment in between, even if
  the statements of the request fail. -/
theorem colliding_add_stops {s : Store} (h : s.PropertiesReady) (key : Key) (incoming : Properties)
    (now : Millis) :
    (∃ result s',
      (Manager.addProperties true key incoming).run.run (Effect.answer now) s = (result, s') ∧
      (result = .ok () ↔ ∀ name, s.property? key name = none ∨ incoming.get? name = none) ∧
      (result = .ok () → s'.maps = s.maps.setProperties key fun name =>
        (s.property? key name).or (incoming.get? name)) ∧
      (∀ error, result = .error error → ∃ name,
        error = .record (.addProperty key name) .uniqueViolation ∧
        s.property? key name ≠ none ∧ incoming.get? name ≠ none ∧
        (∀ other, s.property? key other ≠ none → incoming.get? other ≠ none →
          ByteOrder.bytes name ≤ ByteOrder.bytes other) ∧
        s'.maps = s.maps.setProperties key fun other => (s.property? key other).or
          (if ByteOrder.bytes other < ByteOrder.bytes name then incoming.get? other else none)) ∧
      ∀ later, ∃ all,
        (Manager.properties true key).run.run (Effect.answer later) s' = (.ok all, s') ∧
        all.get? = s'.property? key) ∧
    ∀ (es : List (Event Unit Store.Statement.Reply Store)) p s',
      Trace Store.Statement.Answers (· = ·) ()
        (Action.attempt now (Manager.addProperties true key incoming)).run s es p s' →
      ∀ k name value, s.property? k name = some value → s'.property? k name = some value := by
  refine ⟨?_, fun es p s' hTrace => Trace.addProperties_keeps hTrace⟩
  have hReady := h.after_action now (Manager.addProperties true key incoming)
  rcases h.run_addProperties now key incoming with ⟨s', hRun, hApart, hMaps⟩ |
    ⟨name, s', hRun, hCollides, hMaps⟩ <;> rw [hRun] at hReady
  · exact ⟨.ok (), s', hRun, ⟨fun _ => hApart, fun _ => rfl⟩, fun _ => hMaps, by simp,
      fun later => hReady.run_properties later key⟩
  · refine ⟨.error (.record (.addProperty key name) .uniqueViolation), s', hRun, ⟨by simp, ?_⟩,
      by simp, ?_, fun later => hReady.run_properties later key⟩
    · -- the name is in both sets, so they are not apart
      intro hApart
      rcases hApart name with hNone | hNone
      · exact absurd hNone hCollides.isStored
      · exact absurd hNone hCollides.isIncoming
    · rintro error hError
      cases hError
      refine ⟨name, rfl, hCollides.isStored, hCollides.isIncoming, hCollides.least, ?_⟩
      rw [hMaps]
      refine congrArg (s.maps.setProperties key) (funext fun other => ?_)
      rw [joined, Properties.get?_before]

/-- The name `b` is stored, so `a` is added and `c` is not. -/
theorem colliding_add_stops_b :
    storedB.PropertiesReady ∧
    ∃ s', (Manager.addProperties true ⟨"alice", 1, "sms-otp"⟩ threeNames).run.run (Effect.answer 0)
        storedB = (.error (.record (.addProperty ⟨"alice", 1, "sms-otp"⟩ "b") .uniqueViolation), s') ∧
      s'.property? ⟨"alice", 1, "sms-otp"⟩ "a" = some "x" ∧
      s'.property? ⟨"alice", 1, "sms-otp"⟩ "b" = some "1" ∧
      s'.property? ⟨"alice", 1, "sms-otp"⟩ "c" = none := by
  have hReady : storedB.PropertiesReady := ⟨rfl, rfl, fun _ _ => rfl⟩
  have hStored : ∀ name, storedB.property? ⟨"alice", 1, "sms-otp"⟩ name ≠ none → name = "b" := by
    intro name hName
    have hInsert : Store.execute (.insertProperty ⟨"alice", 1, "sms-otp"⟩ "b" "1") .migrated =
        (.ok (), storedB) := rfl
    by_contra hOther
    refine hName ?_
    rw [(Store.execute_insertProperty hInsert).2, Function.update_self,
      Function.update_of_ne hOther]
    rfl
  obtain ⟨⟨result, s', hRun, hOk, -, hError, -⟩, -⟩ :=
    colliding_add_stops hReady ⟨"alice", 1, "sms-otp"⟩ threeNames 0
  cases result with
  | ok u =>
    have hApart := hOk.mp rfl "b"
    rcases hApart with hNone | hNone <;> cases hNone
  | error error =>
    obtain ⟨name, rfl, hName, -, -, hMaps⟩ := hError error rfl
    cases hStored name hName
    have hMap := congrArg (fun m => m.properties ⟨"alice", 1, "sms-otp"⟩) hMaps
    refine ⟨hReady, s', hRun, ?_, ?_, ?_⟩
    · exact (congrFun hMap "a").trans rfl
    · exact (congrFun hMap "b").trans rfl
    · exact (congrFun hMap "c").trans rfl

end Latch
