import Mathlib
import Latch.Proofs.Properties.MergeStatements

/-!
# A merge that fails

A request to set properties is several statements, and nothing takes them back when one of them fails.
What is left is the old map with some of the entries written over it: those whose writes come before
the one that failed, and perhaps the entry of that one. The same request, made once more, finds the
names that were added and updates them, and so arrives where it would have arrived the first time.

* `StoppedWrites` — what is left when writes stop at one that fails.

Main results:

* `Trace.writeAll_cases` — a sequence of writes gets through, or it has stopped;
* `Store.PropertiesReady.run_merge` — on a store without failures a request overrides the map, and
  answers with a diff;
* `failed_merge_heals` — what a failed request leaves, and what the next one makes of it.
-/

namespace Latch

open Program (Trace)

variable {key : Key} {incoming : Properties} {now : Millis} {s s' : Store}
  {writes rest : List PropertyWrite} {w : PropertyWrite} {error : Error}
  {questions : List Store.Statement}

/-! ## Reads and writes that may fail -/

namespace Store.Statement.Answers

/-- A read changes nothing, also if it fails. -/
theorem after_read {reply : (Store.Statement.selectProperties key).Reply}
    (h : Answers (.selectProperties key) s reply s') : s' = s := by
  rcases h.after_cases with rfl | ⟨rows, hExecute⟩
  · rfl
  · exact (Store.execute_selectProperties hExecute).2

/-- A write has written its entry or nothing. -/
theorem after_write {reply : (w.statement key).Reply} (h : Answers (w.statement key) s reply s')
    (hFits : w.Fits (s.property? key)) :
    Store.Overlaid key [] s s' ∨ Store.Overlaid key [w.entry] s s' := by
  rcases h.after_cases with rfl | ⟨result, hExecute⟩
  · exact Or.inl (.refl key s')
  · exact Or.inr (Store.overlaid_of_execute hExecute hFits.there)

end Store.Statement.Answers

/-! ## Writes that stop -/

/-- Writes have stopped at one that failed: those before it have been made, those after it have not
been tried, and it may have been made or not. -/
def StoppedWrites (key : Key) (writes : List PropertyWrite) (questions : List Store.Statement)
    (error : Error) (s s' : Store) : Prop :=
  ∃ front w rest cause, writes = front ++ w :: rest ∧ error = .record (w.failed key) cause ∧
    questions = (front ++ [w]).map (PropertyWrite.statement key) ∧
    (Store.Overlaid key (front.map PropertyWrite.entry) s s' ∨
      Store.Overlaid key ((front ++ [w]).map PropertyWrite.entry) s s')

theorem StoppedWrites.cons {s₁ : Store} (h : StoppedWrites key rest questions error s₁ s')
    (hFirst : Store.Overlaid key [w.entry] s s₁) :
    StoppedWrites key (w :: rest) (w.statement key :: questions) error s s' := by
  obtain ⟨front, last, after, cause, rfl, rfl, rfl, hRows⟩ := h
  exact ⟨w :: front, last, after, cause, rfl, rfl, rfl, hRows.imp hFirst.append hFirst.append⟩

/-- What is left is a part of the entries. -/
theorem StoppedWrites.exists_overlaid (h : StoppedWrites key writes questions error s s') :
    ∃ front, front <+: writes ∧ Store.Overlaid key (front.map PropertyWrite.entry) s s' := by
  obtain ⟨front, w, rest, cause, rfl, -, -, hRows | hRows⟩ := h
  · exact ⟨front, List.prefix_append _ _, hRows⟩
  · exact ⟨front ++ [w], ⟨rest, by simp⟩, hRows⟩

/-- The names of other writes are not touched by the first one. -/
theorem fits_rest {map : String → Option String}
    (hNames : ((w :: rest).map fun w => w.entry.1).Nodup) (hFits : ∀ x ∈ w :: rest, x.Fits map) :
    ∀ x ∈ rest, x.Fits (overlay map [w.entry]) := by
  intro x hx
  rw [List.map_cons, List.nodup_cons] at hNames
  have hOther : x.entry.1 ≠ w.entry.1 := fun hSame => hNames.1 (List.mem_map.mpr ⟨x, hx, hSame⟩)
  exact (hFits x (List.mem_cons_of_mem _ hx)).update hOther _

/-- **A sequence of writes gets through, or it has stopped at one that failed.** -/
theorem Trace.writeAll_cases {α ι : Type} {actor : ι} {a : α}
    {es : List (Event ι Store.Statement.Reply Store)} {result : Except Error α}
    (hNames : (writes.map fun w => w.entry.1).Nodup)
    (hFits : ∀ w ∈ writes, w.Fits (s.property? key))
    (h : Trace Store.Statement.Answers (· = ·) actor (writeAll key writes >>= fun _ => pure a).run
      s es (.done result) s') :
    (result = .ok a ∧ Store.Overlaid key (writes.map PropertyWrite.entry) s s') ∨
      ∃ error, result = .error error ∧
        StoppedWrites key writes (es.map Event.question) error s s' := by
  -- the rest of the writes still fits after the first one, which has another name than they have
  induction writes generalizing s es with
  | nil =>
    obtain ⟨-, hResult, rfl⟩ := Trace.done_inv (a := (.ok a : Except Error α)) h
    cases hResult
    exact Or.inl ⟨rfl, .refl key s⟩
  | cons w rest ih =>
    rw [writeAll, bind_assoc] at h
    rcases Trace.statement_cases h with ⟨-, hLeft, -⟩ |
      ⟨_, s₁, u, es, rfl, rfl, hAnswer, hRest⟩ | ⟨_, s₁, fault, rfl, rfl, hAnswer, hLeft, rfl⟩
    · -- a trace that has not begun does not end with a result
      rw [run_statement_bind] at hLeft
      cases hLeft
    · have hFirst : Store.Overlaid key [w.entry] s s₁ :=
        Store.overlaid_of_execute hAnswer.execute_eq (hFits w (by simp)).there
      have hFits' : ∀ x ∈ rest, x.Fits (s₁.property? key) := by
        rw [hFirst.at_key]
        exact fits_rest hNames hFits
      rcases ih (List.nodup_cons.mp hNames).2 hFits' hRest with ⟨rfl, hRows⟩ | ⟨error, rfl, hStopped⟩
      · exact Or.inl ⟨rfl, hFirst.append hRows⟩
      · exact Or.inr ⟨error, rfl, hStopped.cons hFirst⟩
    · -- the first write has failed, so nothing comes before it
      cases hLeft
      exact Or.inr ⟨_, rfl, [], w, rest, fault.cause, rfl, rfl, rfl,
        hAnswer.after_write (hFits w (by simp))⟩

/-! ## Requests -/

section Requests

variable {es : List (Event Unit Store.Statement.Reply Store)} {result : Except Error PropertyDiff}

/-- How a request ends: it has overridden the map, it could not read it, or its writes have stopped. -/
theorem Trace.setProperties_cases
    (h : Trace Store.Statement.Answers (· = ·) ()
      (Action.attempt now (Manager.setProperties true key incoming)).run s es (.done result) s') :
    (∃ diff, result = .ok diff ∧ s'.property? =
      Function.update s.property? key (overridden incoming (s.property? key))) ∨
    (∃ cause, result = .error (.record (.readProperties key) cause) ∧
      es.map Event.question = [.selectProperties key] ∧ s' = s) ∨
    ∃ error questions, result = .error error ∧
      es.map Event.question = .selectProperties key :: questions ∧
      StoppedWrites key (mergeWrites incoming (s.property? key)) questions error s s' := by
  cases hEmpty : incoming.isEmpty with
  | true =>
    rw [attempt_setProperties_of_isEmpty now key hEmpty] at h
    obtain ⟨-, hResult, rfl⟩ := Trace.done_inv (a := (.ok default : Except Error PropertyDiff)) h
    cases hResult
    refine Or.inl ⟨default, rfl, ?_⟩
    rw [overridden_of_isEmpty hEmpty, Function.update_eq_self]
  | false =>
    rw [attempt_setProperties now key hEmpty] at h
    rcases Trace.statement_cases h with ⟨-, hLeft, -⟩ |
      ⟨_, s₁, rows, es, rfl, rfl, hAnswer, hRest⟩ | ⟨_, s₁, fault, rfl, rfl, hAnswer, hLeft, rfl⟩
    · rw [run_statement_bind] at hLeft
      cases hLeft
    · -- the writes are those that the stored map calls for
      obtain ⟨hStored, rfl⟩ := Store.execute_selectProperties hAnswer.execute_eq
      rw [hStored] at hRest
      rcases Trace.writeAll_cases (nodup_mergeWrites incoming (s₁.property? key)) fits_mergeWrites
        hRest with ⟨rfl, hRows⟩ | ⟨error, rfl, hStopped⟩
      · refine Or.inl ⟨_, rfl, ?_⟩
        rw [hRows, overlay_mergeWrites]
      · exact Or.inr (Or.inr ⟨error, _, rfl, rfl, hStopped⟩)
    · cases hLeft
      exact Or.inr (Or.inl ⟨fault.cause, rfl, rfl, hAnswer.after_read⟩)

/-- However a request ends, entries of its set have been written over the map of its key. -/
theorem Trace.setProperties_overlaid
    (h : Trace Store.Statement.Answers (· = ·) ()
      (Action.attempt now (Manager.setProperties true key incoming)).run s es (.done result) s') :
    ∃ entries, (∀ name value, (name, value) ∈ entries → incoming.get? name = some value) ∧
      Store.Overlaid key entries s s' := by
  rcases Trace.setProperties_cases h with ⟨diff, rfl, hRows⟩ | ⟨-, -, -, rfl⟩ |
    ⟨error, questions, rfl, -, hStopped⟩
  · refine ⟨(mergeWrites incoming (s.property? key)).map PropertyWrite.entry,
      fun _ _ => mem_entries_mergeWrites.mp, ?_⟩
    rw [Store.Overlaid, overlay_mergeWrites, hRows]
  · exact ⟨[], by simp, .refl key s'⟩
  · obtain ⟨front, hPrefix, hRows⟩ := hStopped.exists_overlaid
    refine ⟨front.map PropertyWrite.entry, fun name value hMem => ?_, hRows⟩
    exact mem_entries_mergeWrites.mp ((hPrefix.map _).subset hMem)

end Requests

/-! ## Requests that get through -/

theorem Store.PropertiesReady.run_writeAll {α : Type} (a : α) (h : s.PropertiesReady)
    (hNames : (writes.map fun w => w.entry.1).Nodup)
    (hFits : ∀ w ∈ writes, w.Fits (s.property? key)) :
    ∃ s', s.run (writeAll key writes >>= fun _ => pure a).run = (.ok a, s') ∧
      Store.Overlaid key (writes.map PropertyWrite.entry) s s' := by
  induction writes generalizing s with
  | nil => exact ⟨s, rfl, .refl key s⟩
  | cons w rest ih =>
    cases hExecute : Store.execute (w.statement key) s with
    | mk reply s₁ =>
      have hHead := hFits w (List.mem_cons_self ..)
      obtain ⟨hReady, ⟨u, rfl, hFirst⟩ | ⟨name, value, rfl, hOld, -, -⟩⟩ :=
        h.execute_write hExecute hHead.there
      · have hFits' : ∀ x ∈ rest, x.Fits (s₁.property? key) := by
          rw [hFirst.at_key]
          exact fits_rest hNames hFits
        obtain ⟨s', hRun, hRows⟩ := ih hReady (List.nodup_cons.mp hNames).2 hFits'
        refine ⟨s', ?_, hFirst.append hRows⟩
        rw [Store.run, run_writeAll_cons, Program.run, hExecute]
        exact hRun
      · -- a write that fits does not add a name that is there
        exact absurd hHead hOld

/-- **On a store without failures a request overrides the map**, and touches no other key. Its answer
is the diff against what is stored. -/
theorem Store.PropertiesReady.run_merge (h : s.PropertiesReady) (now : Millis) (key : Key)
    (incoming : Properties) :
    ∃ existing s', (Manager.setProperties true key incoming).run.run (Effect.answer now) s =
        (.ok (PropertyDiff.compute incoming existing), s') ∧
      existing.get? = s.property? key ∧
      s'.property? = Function.update s.property? key (overridden incoming (s.property? key)) := by
  obtain ⟨rows, hRead⟩ := h.execute_selectProperties key
  obtain ⟨hStored, -⟩ := Store.execute_selectProperties hRead
  simp only [← run_attempt]
  cases hEmpty : incoming.isEmpty with
  | true =>
    -- nothing is read, and the diff is empty whatever is stored
    rw [attempt_setProperties_of_isEmpty now key hEmpty,
      ← PropertyDiff.compute_of_isEmpty hEmpty (Properties.ofList rows)]
    refine ⟨Properties.ofList rows, s, rfl, hStored, ?_⟩
    rw [overridden_of_isEmpty hEmpty, Function.update_eq_self]
  | false =>
    rw [attempt_setProperties now key hEmpty, Store.run, run_statement_bind, Program.run, hRead]
    dsimp only
    rw [hStored]
    obtain ⟨s', hRun, hRows⟩ := h.run_writeAll (PropertyDiff.compute incoming (Properties.ofList rows))
      (nodup_mergeWrites incoming (s.property? key)) fits_mergeWrites
    refine ⟨Properties.ofList rows, s', hRun, hStored, ?_⟩
    rw [hRows, overlay_mergeWrites]

theorem Store.PropertiesReady.run_setProperties (h : s.PropertiesReady) (now : Millis) (key : Key)
    (incoming : Properties) :
    ∃ diff s', (Manager.setProperties true key incoming).run.run (Effect.answer now) s =
        (.ok diff, s') ∧
      s'.property? = Function.update s.property? key (overridden incoming (s.property? key)) := by
  obtain ⟨existing, s', hRun, -, hRows⟩ := h.run_merge now key incoming
  exact ⟨_, s', hRun, hRows⟩

/-- **A failed request leaves a part of its entries, and the next one heals it.** A request to set
properties is carried out on any store, and any of its statements may fail, whether it has taken effect
or not.

* If it succeeds, it has overridden the map of its key by its set.
* If it fails, then it could not read the map, which is as it was; or it has stopped at one of its
  writes, first the names that are new and then the others, each part in byte order. The writes before
  that one are done, that one may be done, and no other is. The error names what could not be written.
* Names that are not in the set, other keys and the lock rows are untouched.
* Made once more on a store that does not fail and still has this map, the request succeeds, and the
  map is what it would have been if the first one had. -/
theorem failed_merge_heals {es : List (Event Unit Store.Statement.Reply Store)}
    {result : Except Error PropertyDiff}
    (h : Trace Store.Statement.Answers (· = ·) ()
      (Action.attempt now (Manager.setProperties true key incoming)).run s es (.done result) s') :
    (∀ diff, result = .ok diff →
      s'.property? key = overridden incoming (s.property? key)) ∧
    (∀ error, result = .error error →
      (∃ cause, error = .record (.readProperties key) cause ∧
        es.map Event.question = [.selectProperties key] ∧ s'.property? key = s.property? key) ∨
      ∃ front w rest cause, mergeWrites incoming (s.property? key) = front ++ w :: rest ∧
        error = .record (w.failed key) cause ∧
        es.map Event.question =
          .selectProperties key :: (front ++ [w]).map (PropertyWrite.statement key) ∧
        (s'.property? key = overlay (s.property? key) (front.map PropertyWrite.entry) ∨
          s'.property? key = overlay (s.property? key) ((front ++ [w]).map PropertyWrite.entry))) ∧
    (∀ name, incoming.get? name = none → s'.property? key name = s.property? key name) ∧
    (∀ k, k ≠ key → s'.property? k = s.property? k) ∧
    s'.lock? = s.lock? ∧
    ∀ (again : Store) (later : Millis), again.PropertiesReady →
      again.property? key = s'.property? key →
      ∃ diff healed, (Manager.setProperties true key incoming).run.run (Effect.answer later) again =
          (.ok diff, healed) ∧
        healed.property? key = overridden incoming (s.property? key) := by
  obtain ⟨entries, hEntries, hRows⟩ := Trace.setProperties_overlaid h
  refine ⟨?_, ?_, ?_, fun k hk => hRows.at_other hk, ?_, ?_⟩
  · rintro diff rfl
    rcases Trace.setProperties_cases h with ⟨_, _, hRows⟩ | ⟨_, hError, _⟩ | ⟨_, _, hError, _⟩
    · rw [hRows, Function.update_self]
    · cases hError
    · cases hError
  · rintro error rfl
    rcases Trace.setProperties_cases h with ⟨_, hOk, _⟩ | ⟨cause, hError, hAsked, rfl⟩ |
      ⟨_, questions, hError, hAsked, front, w, rest, cause, hWrites, rfl, rfl, hLeft⟩
    · cases hOk
    · cases hError
      exact Or.inl ⟨cause, rfl, hAsked, rfl⟩
    · cases hError
      exact Or.inr ⟨front, w, rest, cause, hWrites, rfl, hAsked, hLeft.imp (·.at_key) (·.at_key)⟩
  · -- nothing is written but entries of the set
    intro name hOutside
    rw [hRows.at_key]
    refine overlay_of_not_mem fun value hMem => ?_
    cases hOutside.symm.trans (hEntries name value hMem)
  · -- no statement of the request is about a lock
    refine (h.keeps (I := fun x => x.lock? = s.lock?) (fun _ _ hEq hx => hEq ▸ hx) ?_ rfl).2
    intro e he hBefore
    have hAbout := h.asked (Request.asks_attempt true (.setProperties key incoming) rfl) e he
    exact ((h.answered e he).lock?_eq hAbout).trans hBefore
  · -- what the first request has written is written again, with the same values
    intro again later hReady hSame
    obtain ⟨diff, healed, hRun, hHealed⟩ := hReady.run_setProperties later key incoming
    refine ⟨diff, healed, hRun, ?_⟩
    rw [hHealed, Function.update_self, hSame, hRows.at_key, overridden_overlay hEntries]

/-! The name `b` is stored, and `a` and `c` are new. The write of `c` fails although it has taken effect,
so `b` keeps its old value until the request is made again. -/

def storedB : Store := (Store.execute (.insertProperty ⟨"alice", 1, "sms-otp"⟩ "b" "1") .migrated).2

def threeNames : Properties := .ofList [("c", "z"), ("b", "y"), ("a", "x")]

/-- The store after the writes of `a` and `c`. -/
def twoAdded : Store :=
  (Store.execute (.insertProperty ⟨"alice", 1, "sms-otp"⟩ "c" "z")
    (Store.execute (.insertProperty ⟨"alice", 1, "sms-otp"⟩ "a" "x") storedB).2).2

theorem mergeWrites_threeNames :
    mergeWrites threeNames (Properties.ofList [("b", "1")]).get? =
      [.add "a" "x", .add "c" "z", .update "b" "y"] := by
  cbv

/-- The request reads, adds `a`, and fails at `c`. -/
theorem trace_threeNames :
    ∃ es, Trace Store.Statement.Answers (· = ·) ()
      (Action.attempt 0 (Manager.setProperties true ⟨"alice", 1, "sms-otp"⟩ threeNames)).run storedB
      es (.done (.error (.record (.addProperty ⟨"alice", 1, "sms-otp"⟩ "c") .database))) twoAdded := by
  obtain ⟨es, hWrites⟩ : ∃ es, Trace Store.Statement.Answers (· = ·) ()
      (writeAll ⟨"alice", 1, "sms-otp"⟩
        (mergeWrites threeNames (Properties.ofList [("b", "1")]).get?) >>= fun _ =>
          pure (PropertyDiff.compute threeNames (Properties.ofList [("b", "1")]))).run storedB es
      (.done (.error (.record (.addProperty ⟨"alice", 1, "sms-otp"⟩ "c") .database))) twoAdded := by
    rw [mergeWrites_threeNames]
    exact ⟨_, .turn rfl (.executes _ _) (.turn rfl (.fails .guarded (Or.inr rfl)) (.stop rfl))⟩
  rw [attempt_setProperties 0 _ rfl, run_statement_bind]
  exact ⟨_, .turn rfl (.executes _ _) hWrites⟩

theorem failed_merge_heals_added :
    ∃ es, Trace Store.Statement.Answers (· = ·) ()
        (Action.attempt 0 (Manager.setProperties true ⟨"alice", 1, "sms-otp"⟩ threeNames)).run storedB
        es (.done (.error (.record (.addProperty ⟨"alice", 1, "sms-otp"⟩ "c") .database))) twoAdded ∧
      twoAdded.property? ⟨"alice", 1, "sms-otp"⟩ "b" = some "1" ∧
      twoAdded.property? ⟨"alice", 1, "sms-otp"⟩ "c" = some "z" ∧
      (∃ front w rest, mergeWrites threeNames (storedB.property? ⟨"alice", 1, "sms-otp"⟩) =
          front ++ w :: rest ∧
        es.map Event.question = .selectProperties ⟨"alice", 1, "sms-otp"⟩ ::
          (front ++ [w]).map (PropertyWrite.statement ⟨"alice", 1, "sms-otp"⟩)) ∧
      ∃ diff healed,
        (Manager.setProperties true ⟨"alice", 1, "sms-otp"⟩ threeNames).run.run (Effect.answer 0)
          twoAdded = (.ok diff, healed) ∧
        healed.property? ⟨"alice", 1, "sms-otp"⟩ =
          overridden threeNames (storedB.property? ⟨"alice", 1, "sms-otp"⟩) ∧
        healed.property? ⟨"alice", 1, "sms-otp"⟩ "b" = some "y" := by
  have hReady : twoAdded.PropertiesReady := ⟨rfl, rfl, fun _ _ => rfl⟩
  obtain ⟨es, hTrace⟩ := trace_threeNames
  obtain ⟨-, hFailed, -, -, -, hAgain⟩ := failed_merge_heals hTrace
  obtain ⟨diff, healed, hRun, hHealed⟩ := hAgain twoAdded 0 hReady rfl
  refine ⟨es, hTrace, rfl, rfl, ?_, diff, healed, hRun, hHealed, ?_⟩
  · rcases hFailed _ rfl with ⟨_, hRead, -⟩ | ⟨front, w, rest, _, hWrites, -, hAsked, -⟩
    · cases hRead
    · exact ⟨front, w, rest, hWrites, hAsked⟩
  · rw [hHealed]
    rfl

end Latch
