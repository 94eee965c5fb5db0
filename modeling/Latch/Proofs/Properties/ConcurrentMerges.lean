import Mathlib
import Latch.Proofs.Properties.MergeStatements
import Latch.Proofs.Run.Interleaving

/-!
# Merges that take turns

Any number of requests to set properties of one key take turns, statement by statement. Each has
decided from one read which names it adds and which it updates, and by the time of a write that read
may be old. No name is lost all the same: a name that was read is still there when it is updated, and a
name that has come in between is one that another request brought.

* `mergeCalls` — the requests, each under its own name;
* `Event.written?`, `written` — what an event, and the events of a run, have written;
* `Abreast` — what a request knows of the names that are stored, although its read is old;
* `MergeStage` — how far a request has come; `Merging` — everything that is known of a run.

Main results:

* `MergeStage.turn`, `MergeStage.beside` — what a turn of its own, and one of another, does to a request;
* `merging_of_run` — the map is at all times the first one with what was written over it;
* `concurrent_merges_lose_nothing` — no name is lost, and only a name of another request refuses one.
-/

namespace Latch

open RecordCall (Executes)

variable {ι : Type} {key : Key} {incoming : ι → Properties} {now : ι → Millis} {i : ι}
  {read s s' : Store} {done done' : List PropertyWrite} {w : PropertyWrite}
  {entries : List (String × String)}

/-- Requests to set properties of a key, each under its own name. -/
def mergeCalls (now : ι → Millis) (key : Key) (incoming : ι → Properties) :
    (i : ι) → Program Store.Statement.Reply (Except Error PropertyDiff) :=
  fun i => (Action.attempt (now i) (Manager.setProperties true key (incoming i))).run

/-- The entry that an event has written. -/
def Event.written? : Event ι Store.Statement.Reply Store → Option (String × String)
  | ⟨_, .insertProperty _ name value, .ok _, _, _⟩ => some (name, value)
  | ⟨_, .updateProperty _ name value, .ok _, _, _⟩ => some (name, value)
  | _ => none

/-- The entries that events have written, in their order. -/
def written (es : List (Event ι Store.Statement.Reply Store)) : List (String × String) :=
  es.filterMap Event.written?

theorem written?_write {result : (w.statement key).Result} :
    Event.written? ⟨i, w.statement key, .ok result, s, s'⟩ = some w.entry := by
  cases w <;> rfl

theorem written_concat (es : List (Event ι Store.Statement.Reply Store))
    (e : Event ι Store.Statement.Reply Store) :
    written (es ++ [e]) = written es ++ e.written?.toList := by
  rw [written, List.filterMap_append]
  cases h : e.written? <;> simp [h, written]

/-! ## Old reads -/

/-- What a request knows of the names that are stored, although its read is old: those that it has read
are there, and those that have come since are its own or those of another request. -/
structure Abreast (key : Key) (incoming : ι → Properties) (i : ι) (read : Store)
    (done : List PropertyWrite) (s : Store) : Prop where
  kept : ∀ name, read.property? key name ≠ none → s.property? key name ≠ none
  come : ∀ name, read.property? key name = none → s.property? key name ≠ none →
    name ∈ done.map (fun w => w.entry.1) ∨ ∃ j, j ≠ i ∧ (incoming j).get? name ≠ none

namespace Abreast

theorem start (key : Key) (incoming : ι → Properties) (i : ι) (s : Store) :
    Abreast key incoming i s [] s where
  kept _ h := h
  come _ hNone h := absurd hNone h

/-- Entries of its own and of other requests make no difference. -/
theorem overlaid (h : Abreast key incoming i read done s) (hRows : Store.Overlaid key entries s s')
    (hDone : done ⊆ done')
    (hEntries : ∀ name value, (name, value) ∈ entries →
      name ∈ done'.map (fun w => w.entry.1) ∨ ∃ j, j ≠ i ∧ (incoming j).get? name ≠ none) :
    Abreast key incoming i read done' s' := by
  refine ⟨fun name hRead => ?_, fun name hNone hThere => ?_⟩
  · rw [hRows.at_key]
    exact overlay_ne_none (h.kept name hRead)
  · rw [hRows.at_key] at hThere
    obtain ⟨value, hValue⟩ := Option.ne_none_iff_exists'.mp hThere
    -- a name that is there now was there before, or has just been written
    rcases overlay_origin hValue with hBefore | hWritten
    · have hBefore' : s.property? key name ≠ none := by simp [hBefore]
      exact (h.come name hNone hBefore').imp_left fun hMem => List.map_subset _ hDone hMem
    · exact hEntries name value hWritten

end Abreast

/-! ## Stages -/

/-- How far a request has come, what its own events have written, and what the store is like. -/
inductive MergeStage (now : ι → Millis) (key : Key) (incoming : ι → Properties) (i : ι)
    (own : List (Event ι Store.Statement.Reply Store)) (s : Store) :
    Program Store.Statement.Reply (Except Error PropertyDiff) → Prop
  | started (hOwn : own = []) : MergeStage now key incoming i own s (mergeCalls now key incoming i)
  | writing {read : Store} {rows : List (String × String)} {done rest : List PropertyWrite}
      (hRead : ⟨i, .selectProperties key, .ok rows, read, read⟩ ∈ own)
      (hWrites : mergeWrites (incoming i) (read.property? key) = done ++ rest)
      (hWritten : written own = done.map PropertyWrite.entry)
      (hAbreast : Abreast key incoming i read done s) :
      MergeStage now key incoming i own s (writeAll key rest >>= fun _ =>
        pure (PropertyDiff.compute (incoming i) (Properties.ofList rows))).run
  | refused {read : Store} {rows : List (String × String)} {done rest : List PropertyWrite}
      {name value : String} (hRead : ⟨i, .selectProperties key, .ok rows, read, read⟩ ∈ own)
      (hWrites : mergeWrites (incoming i) (read.property? key) = done ++ .add name value :: rest)
      (hWritten : written own = done.map PropertyWrite.entry)
      (hOther : ∃ j, j ≠ i ∧ (incoming j).get? name ≠ none) :
      MergeStage now key incoming i own s
        (.done (.error (.record (.addProperty key name) .uniqueViolation)))

section Stages

variable {own : List (Event ι Store.Statement.Reply Store)}
  {p : Program Store.Statement.Reply (Except Error PropertyDiff)}

/-- What another request writes leaves a request where it is. -/
theorem MergeStage.beside (h : MergeStage now key incoming i own s p)
    (hRows : Store.Overlaid key entries s s')
    (hEntries : ∀ name value, (name, value) ∈ entries →
      ∃ j, j ≠ i ∧ (incoming j).get? name ≠ none) : MergeStage now key incoming i own s' p := by
  cases h with
  | started hOwn => exact .started hOwn
  | writing hRead hWrites hWritten hAbreast =>
    refine .writing hRead hWrites hWritten (hAbreast.overlaid hRows (List.Subset.refl _) ?_)
    exact fun name value hMem => Or.inr (hEntries name value hMem)
  | refused hRead hWrites hWritten hOther => exact .refused hRead hWrites hWritten hOther

/-- How a request that is done has ended. -/
theorem MergeStage.done_cases {result : Except Error PropertyDiff}
    (h : MergeStage now key incoming i own s (.done result)) :
    (∃ diff, result = .ok diff ∧ ∀ name value, (incoming i).get? name = some value →
      (name, value) ∈ written own) ∨
    ∃ read rows done name value rest,
      ⟨i, .selectProperties key, .ok rows, read, read⟩ ∈ own ∧
      mergeWrites (incoming i) (read.property? key) = done ++ .add name value :: rest ∧
      result = .error (.record (.addProperty key name) .uniqueViolation) ∧
      (∃ j, j ≠ i ∧ (incoming j).get? name ≠ none) ∧
      written own = done.map PropertyWrite.entry := by
  generalize hp : (Program.done result : Store.Script (Except Error PropertyDiff)) = p at h
  cases h with
  | started =>
    cases hEmpty : (incoming i).isEmpty with
    | true =>
      rw [mergeCalls, attempt_setProperties_of_isEmpty (now i) key hEmpty] at hp
      cases hp
      refine Or.inl ⟨default, rfl, fun name value hName => ?_⟩
      cases (Properties.get?_of_isEmpty hEmpty name).symm.trans hName
    | false =>
      rw [mergeCalls, attempt_setProperties (now i) key hEmpty, run_statement_bind] at hp
      cases hp
  | @writing read rows done rest hRead hWrites hWritten hAbreast =>
    cases rest with
    | nil =>
      -- no write is left, so all have been made
      cases hp
      refine Or.inl ⟨_, rfl, fun name value hName => ?_⟩
      rw [hWritten, ← List.append_nil done, ← hWrites]
      exact mem_entries_mergeWrites.mpr hName
    | cons w rest =>
      rw [run_writeAll_cons] at hp
      cases hp
  | @refused read rows done rest name value hRead hWrites hWritten hOther =>
    cases hp
    exact Or.inr ⟨read, rows, done, name, value, rest, hRead, hWrites, rfl, hOther, hWritten⟩

/-- What one turn of a request does: it writes an entry of its own or nothing, and the request comes to
another stage. -/
structure MergeTurn (now : ι → Millis) (key : Key) (incoming : ι → Properties)
    (own : List (Event ι Store.Statement.Reply Store)) (e : Event ι Store.Statement.Reply Store)
    (p : Program Store.Statement.Reply (Except Error PropertyDiff)) : Prop where
  ready : e.after.PropertiesReady
  rows : Store.Overlaid key e.written?.toList e.before e.after
  asked : ∀ name value, e.written? = some (name, value) →
    (incoming e.actor).get? name = some value
  stage : MergeStage now key incoming e.actor (own ++ [e]) e.after p

/-- A write succeeds, or another request has brought its name since the read. -/
theorem MergeStage.write {rows : List (String × String)} {rest : List PropertyWrite}
    {st : Store.Statement} {reply : st.Reply}
    {next : st.Reply → Program Store.Statement.Reply (Except Error PropertyDiff)}
    (hRead : ⟨i, .selectProperties key, .ok rows, read, read⟩ ∈ own)
    (hWrites : mergeWrites (incoming i) (read.property? key) = done ++ w :: rest)
    (hWritten : written own = done.map PropertyWrite.entry)
    (hAbreast : Abreast key incoming i read done s) (hReady : s.PropertiesReady)
    (hAsk : (writeAll key (w :: rest) >>= fun _ =>
      pure (PropertyDiff.compute (incoming i) (Properties.ofList rows))).run = .ask st next)
    (hAnswer : Executes st s reply s') :
    MergeTurn now key incoming own ⟨i, st, reply, s, s'⟩ (next reply) := by
  have hMem : w ∈ mergeWrites (incoming i) (read.property? key) := by simp [hWrites]
  -- a name that was read is still there when it is updated
  have hThere : ∀ name value, w = .update name value → s.property? key name ≠ none :=
    fun name value hw => hAbreast.kept name ((fits_mergeWrites w hMem).there name value hw)
  rw [run_writeAll_cons] at hAsk
  cases hAsk
  obtain ⟨hReady', ⟨u, rfl, hRows⟩ | ⟨name, value, rfl, hOld, rfl, rfl⟩⟩ :=
    hReady.execute_write hAnswer hThere
  · have hEntry : Event.written? ⟨i, w.statement key, .ok u, s, s'⟩ = some w.entry := written?_write
    have hWrites' : mergeWrites (incoming i) (read.property? key) = (done ++ [w]) ++ rest := by
      rw [hWrites, List.append_assoc, List.singleton_append]
    refine ⟨hReady', by rwa [hEntry], ?_, .writing (List.mem_append_left _ hRead) hWrites' ?_
      (hAbreast.overlaid hRows (List.subset_append_left _ _) ?_)⟩
    · intro name value hSame
      rw [hEntry] at hSame
      exact mem_entries_mergeWrites.mp (List.mem_map.mpr ⟨w, hMem, Option.some.inj hSame⟩)
    · rw [written_concat, hWritten, hEntry, List.map_append]
      rfl
    · intro name value hOwn
      refine Or.inl (List.mem_map.mpr ⟨w, by simp, ?_⟩)
      rw [← List.mem_singleton.mp hOwn]
  · refine ⟨hReady', .refl key s', nofun, .refused (List.mem_append_left _ hRead) hWrites ?_ ?_⟩
    · rw [written_concat, hWritten]
      exact List.append_nil _
    · -- the name is not one that the request has written, so another one has brought it
      have hNone : read.property? key name = none := fits_mergeWrites _ hMem
      refine (hAbreast.come name hNone hOld).resolve_left fun hDone => ?_
      have hNames := nodup_mergeWrites (incoming i) (read.property? key)
      rw [hWrites, List.map_append, List.nodup_append] at hNames
      exact hNames.2.2 name hDone name (by simp [PropertyWrite.entry]) rfl

/-- **A turn of a request leads to its next stage.** -/
theorem MergeStage.turn {st : Store.Statement}
    {next : st.Reply → Program Store.Statement.Reply (Except Error PropertyDiff)} {r : st.Reply}
    (h : MergeStage now key incoming i own s p) (hAsk : p = .ask st next)
    (hReady : s.PropertiesReady) (hAnswer : Executes st s r s') :
    MergeTurn now key incoming own ⟨i, st, r, s, s'⟩ (next r) := by
  cases h with
  | started hOwn =>
    subst hOwn
    cases hEmpty : (incoming i).isEmpty with
    | true =>
      -- a request without names is done and takes no turn
      rw [mergeCalls, attempt_setProperties_of_isEmpty (now i) key hEmpty] at hAsk
      cases hAsk
    | false =>
      -- the read: from here on the request is abreast of the store
      rw [mergeCalls, attempt_setProperties (now i) key hEmpty, run_statement_bind] at hAsk
      cases hAsk
      obtain ⟨rows, hRead⟩ := hReady.execute_selectProperties key
      obtain ⟨hStored, -⟩ := Store.execute_selectProperties hRead
      cases hAnswer.symm.trans hRead
      have hWrites : mergeWrites (incoming i) (s.property? key) =
          [] ++ mergeWrites (incoming i) (s.property? key) := rfl
      refine ⟨hReady, .refl key s, nofun, ?_⟩
      dsimp only
      rw [hStored]
      exact .writing (List.mem_singleton_self _) hWrites rfl (.start key incoming i s)
  | @writing read rows done rest hRead hWrites hWritten hAbreast =>
    cases rest with
    | nil => cases hAsk
    | cons w rest => exact MergeStage.write hRead hWrites hWritten hAbreast hReady hAsk hAnswer
  | refused => cases hAsk

end Stages

/-! ## Runs -/

section Runs

variable [DecidableEq ι] {es : List (Event ι Store.Statement.Reply Store)}
  {ps ps' : ι → Program Store.Statement.Reply (Except Error PropertyDiff)} {s₀ : Store}

/-- Everything that is known of a run. -/
structure Merging (now : ι → Millis) (key : Key) (incoming : ι → Properties) (s₀ : Store)
    (es : List (Event ι Store.Statement.Reply Store))
    (ps : ι → Program Store.Statement.Reply (Except Error PropertyDiff)) (s : Store) : Prop where
  ready : s.PropertiesReady
  /-- The map is the first one with what was written over it. -/
  rows : Store.Overlaid key (written es) s₀ s
  each : ∀ e ∈ es, Store.Overlaid key e.written?.toList e.before e.after
  asked : ∀ e ∈ es, ∀ name value, e.written? = some (name, value) →
    (incoming e.actor).get? name = some value
  stage : ∀ i, MergeStage now key incoming i (es.filter (·.actor = i)) s (ps i)

namespace Merging

theorem start (hReady : s.PropertiesReady) :
    Merging now key incoming s [] (mergeCalls now key incoming) s where
  ready := hReady
  rows := .refl key s
  each := by simp
  asked := by simp
  stage _ := .started rfl

/-- A turn of one request is one of its stages forward, and the others stay where they are. -/
theorem turn {i : ι} {st : Store.Statement}
    {next : st.Reply → Program Store.Statement.Reply (Except Error PropertyDiff)} {r : st.Reply}
    (h : Merging now key incoming s₀ es ps s) (hAsk : ps i = .ask st next)
    (hAnswer : Executes st s r s') :
    Merging now key incoming s₀ (es ++ [⟨i, st, r, s, s'⟩]) (Function.update ps i (next r)) s' := by
  have hTurn := (h.stage i).turn hAsk h.ready hAnswer
  refine ⟨hTurn.ready, ?_, ?_, ?_, ?_⟩
  · rw [written_concat]
    exact h.rows.append hTurn.rows
  · simpa [or_imp, forall_and] using ⟨h.each, hTurn.rows⟩
  · simpa [or_imp, forall_and] using ⟨h.asked, hTurn.asked⟩
  · intro j
    by_cases hj : j = i
    · subst hj
      rw [Function.update_self]
      have hStage := hTurn.stage
      rwa [← filter_actor_self es ⟨j, st, r, s, s'⟩] at hStage
    · rw [Function.update_of_ne hj, filter_actor_of_ne hj]
      -- to the others it is another request that has written
      refine (h.stage j).beside hTurn.rows fun name value hMem => ⟨i, Ne.symm hj, ?_⟩
      rw [hTurn.asked name value (Option.mem_toList.mp hMem)]
      exact Option.some_ne_none value

end Merging

theorem merging_of_run (hReady : s.PropertiesReady)
    (h : Interleaving Executes (mergeCalls now key incoming) s es ps s') :
    Merging now key incoming s es ps s' :=
  h.invariant (I := fun es ps x => Merging now key incoming s es ps x) (.start hReady)
    fun hMerging hAsk hAnswer => hMerging.turn hAsk hAnswer

/-! ## What follows for names and values -/

namespace Merging

variable {early late : List (Event ι Store.Statement.Reply Store)}
  {e : Event ι Store.Statement.Reply Store} {name value : String} {diff : PropertyDiff} {error : Error}

theorem origin (h : Merging now key incoming s₀ es ps s) (hValue : s.property? key name = some value) :
    s₀.property? key name = some value ∨ ∃ j, (incoming j).get? name = some value := by
  rw [h.rows.at_key] at hValue
  refine (overlay_origin hValue).imp_right fun hWritten => ?_
  obtain ⟨e, hMem, hEntry⟩ := List.mem_filterMap.mp hWritten
  exact ⟨e.actor, h.asked e hMem name value hEntry⟩

/-- A name that was written has a value that an event has written. -/
theorem exists_writer (h : Merging now key incoming s₀ es ps s)
    (hWritten : (name, value) ∈ written es) :
    ∃ e ∈ es, ∃ last, e.written? = some (name, last) ∧
      (incoming e.actor).get? name = some last ∧ s.property? key name = some last := by
  obtain ⟨last, hLast, hValue⟩ : ∃ last, (name, last) ∈ written es ∧
      overlay (s₀.property? key) (written es) name = some last := overlay_of_mem hWritten
  obtain ⟨e, hMem, hEntry⟩ := List.mem_filterMap.mp hLast
  exact ⟨e, hMem, last, hEntry, h.asked e hMem name last hEntry, h.rows.at_key ▸ hValue⟩

/-- A request that has succeeded has written all its entries. -/
theorem written_of_ok (h : Merging now key incoming s₀ es ps s) (hDone : ps i = .done (.ok diff))
    (hName : (incoming i).get? name = some value) : (name, value) ∈ written es := by
  have hStage := h.stage i
  rw [hDone] at hStage
  rcases hStage.done_cases with ⟨-, -, hAll⟩ | ⟨_, _, _, _, _, _, -, -, hError, -⟩
  · exact (List.filter_sublist.filterMap _).subset (hAll name value hName)
  · cases hError

/-- A request that has failed was about to add a name that another request has brought since its read,
and has made all the writes before that one. -/
theorem refused_of_error (h : Merging now key incoming s₀ es ps s)
    (hDone : ps i = .done (.error error)) :
    ∃ read rows done name value rest,
      ⟨i, .selectProperties key, .ok rows, read, read⟩ ∈ es ∧
      mergeWrites (incoming i) (read.property? key) = done ++ .add name value :: rest ∧
      error = .record (.addProperty key name) .uniqueViolation ∧
      read.property? key name = none ∧ (∃ j, j ≠ i ∧ (incoming j).get? name ≠ none) ∧
      written (es.filter (·.actor = i)) = done.map PropertyWrite.entry := by
  have hStage := h.stage i
  rw [hDone] at hStage
  rcases hStage.done_cases with ⟨_, hOk, -⟩ |
    ⟨read, rows, done, name, value, rest, hRead, hWrites, hError, hOther, hWritten⟩
  · cases hOk
  · cases hError
    have hMem : .add name value ∈ mergeWrites (incoming i) (read.property? key) := by simp [hWrites]
    exact ⟨read, rows, done, name, value, rest, (List.mem_filter.mp hRead).1, hWrites, rfl,
      fits_mergeWrites _ hMem, hOther, hWritten⟩

/-- What an event has written stays until another one writes the name. -/
theorem stays (h : Merging now key incoming s₀ es ps s) (hSplit : es = early ++ e :: late)
    (hEntry : e.written? = some (name, value))
    (hLate : ∀ x ∈ late, ∀ other, x.written? ≠ some (name, other)) :
    s.property? key name = some value := by
  have hWritten : written es = written early ++ (name, value) :: written late := by
    rw [hSplit, written, List.filterMap_append, List.filterMap_cons_some hEntry]
    rfl
  have hNone : ∀ other, (name, other) ∉ written late := by
    intro other hMem
    obtain ⟨x, hx, hOther⟩ := List.mem_filterMap.mp hMem
    exact hLate x hx other hOther
  rw [h.rows.at_key, hWritten, overlay_append, overlay_cons, overlay_of_not_mem hNone,
    Function.update_self]

end Merging

/-- No two of the sets share a name. -/
def Apart (incoming : ι → Properties) : Prop :=
  ∀ i j name, i ≠ j → (incoming i).get? name ≠ none → (incoming j).get? name = none

namespace Merging

variable {name value : String} {error : Error}

theorem not_refused (h : Merging now key incoming s₀ es ps s) (hApart : Apart incoming) :
    ps i ≠ .done (.error error) := by
  intro hDone
  obtain ⟨read, _, done, name, value, rest, -, hWrites, -, -, ⟨j, hj, hOther⟩, -⟩ :=
    h.refused_of_error hDone
  have hMem : (name, value) ∈
      (mergeWrites (incoming i) (read.property? key)).map PropertyWrite.entry := by
    simp [hWrites, PropertyWrite.entry]
  cases (hApart j i name hj hOther).symm.trans (mem_entries_mergeWrites.mp hMem)

/-- All sets have been written, each name by the only request that has it. -/
theorem stored_of_done (h : Merging now key incoming s₀ es ps s) (hApart : Apart incoming)
    (hDone : ∀ i, ∃ result, ps i = .done result) (hName : (incoming i).get? name = some value) :
    s.property? key name = some value := by
  obtain ⟨error | diff, hResult⟩ := hDone i
  · exact absurd hResult (h.not_refused hApart)
  · obtain ⟨e, -, last, -, hLast, hValue⟩ := h.exists_writer (h.written_of_ok hResult hName)
    obtain hSame | hOther := eq_or_ne e.actor i
    · rw [hSame, hName] at hLast
      rw [hValue, ← hLast]
    · -- another request that has the name is against the assumption
      have hNone := hApart e.actor i name hOther (by simp [hLast])
      cases hNone.symm.trans hName

theorem kept_outside (h : Merging now key incoming s₀ es ps s)
    (hOutside : ∀ i, (incoming i).get? name = none) :
    s.property? key name = s₀.property? key name := by
  rw [h.rows.at_key]
  refine overlay_of_not_mem fun value hMem => ?_
  obtain ⟨e, he, hEntry⟩ := List.mem_filterMap.mp hMem
  cases (hOutside e.actor).symm.trans (h.asked e he name value hEntry)

end Merging

/-- **Merges that take turns lose no name.** Any number of requests to set properties of one key take
turns in any order, statement by statement; nobody else writes, and the store does not fail on its own.
The run may stop anywhere, so what is said of its end holds at every moment.

* No event removes a name, and what is stored for a name is what was stored at first or what one of the
  sets has for it.
* When a request has succeeded, every name of its set is stored, with a value that one of the requests
  has written from its own set.
* A request fails only because the name that it was about to add is there. It has read that the name was
  not there, and another set has the name. All its writes before that one have been made.
* What an event has written stays until another one writes the name.
* If no two sets share a name, then no request fails, and once all are done the map is the first one
  overridden by all sets. -/
theorem concurrent_merges_lose_nothing (hReady : s.PropertiesReady)
    (h : Interleaving Executes (mergeCalls now key incoming) s es ps' s') :
    (∀ e ∈ es, ∀ name, e.before.property? key name ≠ none → e.after.property? key name ≠ none) ∧
    (∀ name value, s'.property? key name = some value →
      s.property? key name = some value ∨ ∃ j, (incoming j).get? name = some value) ∧
    (∀ i diff, ps' i = .done (.ok diff) → ∀ name, (incoming i).get? name ≠ none →
      ∃ e ∈ es, ∃ value, e.written? = some (name, value) ∧
        (incoming e.actor).get? name = some value ∧ s'.property? key name = some value) ∧
    (∀ i error, ps' i = .done (.error error) →
      ∃ read rows done name value rest,
        ⟨i, .selectProperties key, .ok rows, read, read⟩ ∈ es ∧
        mergeWrites (incoming i) (read.property? key) = done ++ .add name value :: rest ∧
        error = .record (.addProperty key name) .uniqueViolation ∧
        read.property? key name = none ∧ (∃ j, j ≠ i ∧ (incoming j).get? name ≠ none) ∧
        written (es.filter (·.actor = i)) = done.map PropertyWrite.entry) ∧
    (∀ early e late name value, es = early ++ e :: late → e.written? = some (name, value) →
      (∀ x ∈ late, ∀ other, x.written? ≠ some (name, other)) →
      s'.property? key name = some value) ∧
    (Apart incoming →
      (∀ i error, ps' i ≠ .done (.error error)) ∧
      ((∀ i, ∃ result, ps' i = .done result) →
        (∀ i name value, (incoming i).get? name = some value →
          s'.property? key name = some value) ∧
        ∀ name, (∀ i, (incoming i).get? name = none) →
          s'.property? key name = s.property? key name)) := by
  have hMerging := merging_of_run hReady h
  refine ⟨?_, fun name value => hMerging.origin, ?_, fun i error => hMerging.refused_of_error,
    fun early e late name value => hMerging.stays, fun hApart => ⟨fun i error => ?_, fun hDone => ?_⟩⟩
  · intro e he name hBefore
    rw [(hMerging.each e he).at_key]
    exact overlay_ne_none hBefore
  · intro i diff hDone name hName
    obtain ⟨value, hValue⟩ := Option.ne_none_iff_exists'.mp hName
    exact hMerging.exists_writer (hMerging.written_of_ok hDone hValue)
  · exact hMerging.not_refused hApart
  · exact ⟨fun i name value => hMerging.stored_of_done hApart hDone,
      fun name => hMerging.kept_outside⟩

end Runs

/-! Both requests have read that nothing is stored. The second one adds `Z` and is then refused, because
the first one has brought `a`. Without that name in its set it is not refused. -/

def collidingSets : Fin 2 → Properties
  | 0 => .ofList [("b", "2"), ("a", "1")]
  | 1 => .ofList [("a", "3"), ("Z", "0")]

def apartSets : Fin 2 → Properties
  | 0 => .ofList [("b", "2"), ("a", "1")]
  | 1 => .ofList [("Z", "0")]

/-- Both read first; then the first one adds a name, the second one goes on to its end, and the first one
after it. -/
def mergesInTurn (incoming : Fin 2 → Properties) :
    Played (fun _ : Fin 2 => Except Error PropertyDiff) Store.Statement.Reply Store :=
  play (fun (_ : Unit) => Store.execute) [(0, ()), (1, ()), (0, ()), (1, ()), (1, ()), (0, ())]
    (mergeCalls (fun _ => 0) ⟨"alice", 1, "sms-otp"⟩ incoming) .migrated

theorem interleaving_mergesInTurn (incoming : Fin 2 → Properties) :
    Interleaving Executes (mergeCalls (fun _ => 0) ⟨"alice", 1, "sms-otp"⟩ incoming) .migrated
      (mergesInTurn incoming).events (mergesInTurn incoming).programs
      (mergesInTurn incoming).state :=
  interleaving_play (fun _ _ _ => rfl) _ _ _

theorem apart_apartSets : Apart apartSets := by
  intro i j name hNe hName
  obtain ⟨value, hValue⟩ := Option.ne_none_iff_exists'.mp hName
  rw [Properties.get?_eq_some_iff] at hValue
  match i, j with
  | 0, 0 | 1, 1 => exact absurd rfl hNe
  | 0, 1 =>
    have hEntries : (apartSets 0).entries = [("b", "2"), ("a", "1")] := by cbv
    rw [hEntries] at hValue
    simp at hValue
    rcases hValue with ⟨rfl, -⟩ | ⟨rfl, -⟩ <;> cbv
  | 1, 0 =>
    have hEntries : (apartSets 1).entries = [("Z", "0")] := by cbv
    rw [hEntries] at hValue
    simp at hValue
    obtain ⟨rfl, -⟩ := hValue
    cbv

theorem concurrent_merges_lose_nothing_refused :
    (mergesInTurn collidingSets).programs 1 =
        .done (.error (.record (.addProperty ⟨"alice", 1, "sms-otp"⟩ "a") .uniqueViolation)) ∧
      (∃ j, j ≠ 1 ∧ (collidingSets j).get? "a" ≠ none) ∧
      (mergesInTurn collidingSets).state.property? ⟨"alice", 1, "sms-otp"⟩ "Z" = some "0" ∧
      (∃ diff, (mergesInTurn apartSets).programs 1 = .done (.ok diff)) ∧
      ∀ i name value, (apartSets i).get? name = some value →
        (mergesInTurn apartSets).state.property? ⟨"alice", 1, "sms-otp"⟩ name = some value := by
  have hReady : Store.migrated.PropertiesReady := ⟨rfl, rfl, fun _ _ => rfl⟩
  -- how the two runs end
  have hError : (mergesInTurn collidingSets).programs 1 =
      .done (.error (.record (.addProperty ⟨"alice", 1, "sms-otp"⟩ "a") .uniqueViolation)) := by cbv
  have hFirst : (mergesInTurn apartSets).programs 0 =
      .done (.ok (PropertyDiff.compute (apartSets 0) (.ofList []))) := by cbv
  have hSecond : (mergesInTurn apartSets).programs 1 =
      .done (.ok (PropertyDiff.compute (apartSets 1) (.ofList []))) := by cbv
  have hDone : ∀ i, ∃ result, (mergesInTurn apartSets).programs i = .done result :=
    Fin.forall_fin_two.mpr ⟨⟨_, hFirst⟩, ⟨_, hSecond⟩⟩
  obtain ⟨-, -, -, hRefused, -, -⟩ :=
    concurrent_merges_lose_nothing hReady (interleaving_mergesInTurn collidingSets)
  obtain ⟨_, _, _, _, _, _, -, -, hName, -, hOther, -⟩ := hRefused 1 _ hError
  cases hName
  obtain ⟨-, -, -, -, -, hApart⟩ :=
    concurrent_merges_lose_nothing hReady (interleaving_mergesInTurn apartSets)
  exact ⟨hError, hOther, by cbv, ⟨_, hSecond⟩, ((hApart apart_apartSets).2 hDone).1⟩

end Latch
