import Latch.Proofs.Properties.FailedMerge
import Latch.Proofs.Store.Maps

/-!
# The law of merging

On a store that does not fail, and that nobody else uses meanwhile, a request to set properties is a
merge of maps. What its statements do one after another is then of no concern: two merges are one
merge, and a merge that is made again changes nothing.

* `PropertyDiff.Splits` — a diff tells the names that a map has from those that it does not have;
* `Store.afterSetting` — what a request to set properties makes of a store.

Main results:

* `PropertyDiff.splits_compute` — diffs are computed so;
* `Store.PropertiesReady.after_action` — no action makes a store fail;
* `Store.PropertiesReady.maps_afterSetting` — a request overrides one map and nothing else;
* `Store.PropertiesReady.maps_afterSettings` — requests override a map one after another;
* `Store.PropertiesReady.maps_afterSetting_next` — two requests come to one;
* `set_properties_merges` — its answer, what is read after it, and how requests combine.
-/

namespace Latch

/-! ## Diffs -/

namespace PropertyDiff

/-- A diff is a property set in two halves: the names that a map does not have, and those that it
has. -/
structure Splits (diff : PropertyDiff) (incoming : Properties) (map : String → Option String) :
    Prop where
  toAdd : ∀ name, diff.toAdd.get? name = if map name = none then incoming.get? name else none
  toUpdate : ∀ name, diff.toUpdate.get? name = if map name = none then none else incoming.get? name
  disjoint : ∀ name, diff.toAdd.get? name = none ∨ diff.toUpdate.get? name = none
  together : ∀ name, (diff.toAdd.get? name).or (diff.toUpdate.get? name) = incoming.get? name

theorem splits_compute (incoming existing : Properties) :
    (compute incoming existing).Splits incoming existing.get? := by
  have hAdd : ∀ name, (compute incoming existing).toAdd.get? name =
      if existing.get? name = none then incoming.get? name else none := by
    intro name
    rw [compute, Properties.get?_filter, Properties.contains_eq]
    cases existing.get? name <;> rfl
  have hUpdate : ∀ name, (compute incoming existing).toUpdate.get? name =
      if existing.get? name = none then none else incoming.get? name := by
    intro name
    rw [compute, Properties.get?_filter, Properties.contains_eq]
    cases existing.get? name <;> rfl
  refine ⟨hAdd, hUpdate, fun name => ?_, fun name => ?_⟩
  · rw [hAdd, hUpdate]
    by_cases hNew : existing.get? name = none
    · exact Or.inr (if_pos hNew)
    · exact Or.inl (if_neg hNew)
  · rw [hAdd, hUpdate]
    by_cases hNew : existing.get? name = none
    · rw [if_pos hNew, if_pos hNew, Option.or_none]
    · rw [if_neg hNew, if_neg hNew, Option.none_or]

end PropertyDiff

namespace Store

variable {s : Store} {now : Millis}

/-- What a request to set properties makes of a store, while the clock shows a given time. -/
def afterSetting (s : Store) (now : Millis) (key : Key) (incoming : Properties) : Store :=
  ((Manager.setProperties true key incoming).run.run (Effect.answer now) s).2

/-- A request about properties leaves the lock rows alone. -/
theorem lock?_after_request (request : Request) (hAbout : request.isAboutLock = false) (s : Store)
    (now : Millis) : ((request.action true).run.run (Effect.answer now) s).2.lock? = s.lock? := by
  -- seen statement by statement, a request about properties asks about properties only
  rw [← run_attempt]
  refine (request.asks_attempt true hAbout).run_keeps (I := fun x : Store => x.lock? = s.lock?) ?_ rfl
  intro st x hSt hx
  have hSame : (execute st x).2.lock? = x.lock? := lock?_execute hSt
  exact hSame.trans hx

namespace PropertiesReady

/-- No action closes a store, drops its table of properties, or puts up a guard. -/
theorem after_action {α : Type} (h : s.PropertiesReady) (now : Millis) (x : Action α) :
    (x.run.run (Effect.answer now) s).2.PropertiesReady := by
  rw [← run_attempt]
  exact (Program.Asks.of_forall (P := fun _ => True) (fun _ => trivial) _).run_keeps
    (fun st _ _ hReady => hReady.after_execute st) h

/-- **A request overrides the map of its key**, and leaves the other maps and the locks alone. -/
theorem maps_afterSetting (h : s.PropertiesReady) (now : Millis) (key : Key) (incoming : Properties) :
    (s.afterSetting now key incoming).maps =
      s.maps.setProperties key (overridden incoming (s.property? key)) := by
  obtain ⟨existing, s', hRun, -, hRows⟩ := h.run_merge now key incoming
  have hLocks : (s.afterSetting now key incoming).lock? = s.lock? :=
    lock?_after_request (.setProperties key incoming) rfl s now
  have hAfter : s.afterSetting now key incoming = s' := congrArg Prod.snd hRun
  rw [hAfter] at hLocks ⊢
  simp only [maps, Maps.setProperties, hLocks, hRows]

theorem property?_afterSetting (h : s.PropertiesReady) (now : Millis) (key : Key)
    (incoming : Properties) :
    (s.afterSetting now key incoming).property? key = overridden incoming (s.property? key) := by
  have hMaps := congrArg (fun m => m.properties key) (h.maps_afterSetting now key incoming)
  exact hMaps.trans (Function.update_self ..)

/-- Requests for one key, one after another, override its map one after another. -/
theorem maps_afterSettings (h : s.PropertiesReady) (key : Key) (sets : List (Millis × Properties)) :
    (sets.foldl (fun s set => s.afterSetting set.1 key set.2) s).maps =
      s.maps.setProperties key
        (sets.foldl (fun map set => overridden set.2 map) (s.property? key)) := by
  induction sets generalizing s with
  | nil =>
    have hSame : Function.update s.property? key (s.property? key) = s.property? :=
      Function.update_eq_self key s.property?
    simp only [List.foldl_nil, maps, Maps.setProperties, hSame]
  | cons set rest ih =>
    -- the first request leaves a store on which the others do not fail either
    have hReady : (s.afterSetting set.1 key set.2).PropertiesReady := h.after_action set.1 _
    rw [List.foldl_cons, List.foldl_cons, ih hReady, h.property?_afterSetting, h.maps_afterSetting]
    simp only [Maps.setProperties, Function.update_idem]

/-- **Two requests for one key come to one**, whose set is the first overridden by the second. -/
theorem maps_afterSetting_next (h : s.PropertiesReady) (key : Key) (incoming next : Properties)
    (now later : Millis) :
    ((s.afterSetting now key incoming).afterSetting later key next).maps =
      (s.afterSetting now key (incoming.overriddenBy next)).maps := by
  have hBoth := h.maps_afterSettings key [(now, incoming), (later, next)]
  have hOne := h.maps_afterSetting now key (incoming.overriddenBy next)
  -- on both sides the map is overridden by the first set and then by the second
  rw [← overridden_overridden] at hOne
  exact hBoth.trans hOne.symm

/-- A request that is made again changes nothing more. -/
theorem maps_afterSetting_again (h : s.PropertiesReady) (key : Key) (incoming : Properties)
    (now later : Millis) :
    ((s.afterSetting now key incoming).afterSetting later key incoming).maps =
      (s.afterSetting now key incoming).maps := by
  have hBoth := h.maps_afterSettings key [(now, incoming), (later, incoming)]
  have hOne := h.maps_afterSetting now key incoming
  rw [← overridden_self] at hOne
  exact hBoth.trans hOne.symm

theorem run_properties (h : s.PropertiesReady) (now : Millis) (key : Key) :
    ∃ all, (Manager.properties true key).run.run (Effect.answer now) s = (.ok all, s) ∧
      all.get? = s.property? key := by
  obtain ⟨properties, hProperties⟩ := h.exists_properties
  refine ⟨_, h.perform_getProperties hProperties key, funext fun name => ?_⟩
  rw [get?_ofList_propertiesOf, property?_of_table hProperties]

/-- If a key has no properties, then any can be added. -/
theorem run_addProperties_of_none (h : s.PropertiesReady) (now : Millis) {key : Key}
    (incoming : Properties) (hNone : ∀ name, s.property? key name = none) :
    ∃ added, (Manager.addProperties true key incoming).run.run (Effect.answer now) s =
        (.ok (), added) ∧
      added.maps = s.maps.setProperties key (overridden incoming (s.property? key)) := by
  -- either all names are added, or one of them was there before
  rcases h.run_addAll key incoming.nodup_inOrder with ⟨-, s', hRun, hRows⟩ |
    ⟨_, name, _, _, _, _, _, hOld, _⟩
  · have hPerform : s.perform (.addProperties key incoming) = (.ok (), s') := hRun
    rw [Overlaid, overlay_inOrder] at hRows
    exact ⟨s', hPerform, maps_of_properties rfl hPerform hRows⟩
  · exact absurd (hNone name) hOld

end PropertiesReady

end Store

/-- **Setting properties merges maps.** A store does not fail, and nobody else uses it meanwhile.

* A request to set properties succeeds. Its diff is its set, split by the names that are stored. The
  stored map is overridden by the set; other keys, and all locks, are as they were. What is read of the
  key from then on is that map.
* Setting one set and then another comes to setting the first set overridden by the second.
* Setting a set twice comes to setting it once.
* If the key has no properties, then adding a set succeeds, and comes to setting it: the set itself is
  stored. -/
theorem set_properties_merges {s : Store} (h : s.PropertiesReady) (key : Key) (incoming : Properties)
    (now : Millis) :
    (∃ diff merged,
      (Manager.setProperties true key incoming).run.run (Effect.answer now) s = (.ok diff, merged) ∧
      diff.Splits incoming (s.property? key) ∧
      merged.PropertiesReady ∧
      merged.maps = s.maps.setProperties key (overridden incoming (s.property? key)) ∧
      ∀ later, ∃ all,
        (Manager.properties true key).run.run (Effect.answer later) merged = (.ok all, merged) ∧
        all.get? = overridden incoming (s.property? key)) ∧
    (∀ next later,
      ((s.afterSetting now key incoming).afterSetting later key next).maps =
        (s.afterSetting now key (incoming.overriddenBy next)).maps) ∧
    (∀ later,
      ((s.afterSetting now key incoming).afterSetting later key incoming).maps =
        (s.afterSetting now key incoming).maps) ∧
    ((∀ name, s.property? key name = none) →
      ∃ added,
        (Manager.addProperties true key incoming).run.run (Effect.answer now) s = (.ok (), added) ∧
        added.maps = (s.afterSetting now key incoming).maps ∧
        added.property? key = incoming.get?) := by
  refine ⟨?_, fun next later => h.maps_afterSetting_next key incoming next now later,
    fun later => h.maps_afterSetting_again key incoming now later, ?_⟩
  · obtain ⟨existing, merged, hRun, hExisting, -⟩ := h.run_merge now key incoming
    have hAfter : s.afterSetting now key incoming = merged := congrArg Prod.snd hRun
    have hReady : (s.afterSetting now key incoming).PropertiesReady := h.after_action now _
    have hMaps := h.maps_afterSetting now key incoming
    have hStored := h.property?_afterSetting now key incoming
    rw [hAfter] at hReady hMaps hStored
    -- what is read first is what is stored, so the diff is split by what is stored
    have hSplits := PropertyDiff.splits_compute incoming existing
    rw [hExisting] at hSplits
    refine ⟨_, merged, hRun, hSplits, hReady, hMaps, ?_⟩
    intro later
    obtain ⟨all, hRead, hAll⟩ := hReady.run_properties later key
    exact ⟨all, hRead, hAll.trans hStored⟩
  · intro hNone
    obtain ⟨added, hRun, hMaps⟩ := h.run_addProperties_of_none now incoming hNone
    have hStored : added.property? key = overridden incoming (s.property? key) :=
      (congrArg (fun m => m.properties key) hMaps).trans (Function.update_self ..)
    -- overriding a map without names leaves the set
    have hOwn : overridden incoming (s.property? key) = incoming.get? := by
      funext name
      rw [overridden, hNone, Option.or_none]
    have hSame := (h.maps_afterSetting now key incoming).symm
    exact ⟨added, hRun, hMaps.trans hSame, hStored.trans hOwn⟩

/-- The name `b` is stored for one key, and nothing for the other. -/
theorem set_properties_merges_threeNames :
    (∃ diff merged all,
      (Manager.setProperties true ⟨"alice", 1, "sms-otp"⟩ threeNames).run.run (Effect.answer 0)
        storedB = (.ok diff, merged) ∧
      diff.toAdd.get? "a" = some "x" ∧ diff.toAdd.get? "b" = none ∧
      diff.toUpdate.get? "a" = none ∧ diff.toUpdate.get? "b" = some "y" ∧
      (Manager.properties true ⟨"alice", 1, "sms-otp"⟩).run.run (Effect.answer 0) merged =
        (.ok all, merged) ∧
      all.get? = overridden threeNames (storedB.property? ⟨"alice", 1, "sms-otp"⟩)) ∧
    ∃ added,
      (Manager.addProperties true ⟨"bob", 1, "sms-otp"⟩ threeNames).run.run (Effect.answer 0)
        storedB = (.ok (), added) ∧
      added.maps = (storedB.afterSetting 0 ⟨"bob", 1, "sms-otp"⟩ threeNames).maps ∧
      added.property? ⟨"bob", 1, "sms-otp"⟩ = threeNames.get? := by
  have hReady : storedB.PropertiesReady := ⟨rfl, rfl, fun _ _ => rfl⟩
  obtain ⟨⟨diff, merged, hRun, hSplits, -, -, hRead⟩, -⟩ :=
    set_properties_merges hReady ⟨"alice", 1, "sms-otp"⟩ threeNames 0
  obtain ⟨all, hAll, hStored⟩ := hRead 0
  obtain ⟨-, -, -, hAdd⟩ := set_properties_merges hReady ⟨"bob", 1, "sms-otp"⟩ threeNames 0
  refine ⟨⟨diff, merged, all, hRun, ?_, ?_, ?_, ?_, hAll, hStored⟩, hAdd fun _ => rfl⟩
  · rw [hSplits.toAdd]
    rfl
  · rw [hSplits.toAdd]
    rfl
  · rw [hSplits.toUpdate]
    rfl
  · rw [hSplits.toUpdate]
    rfl

end Latch
