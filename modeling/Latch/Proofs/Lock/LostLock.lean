import Latch.Proofs.Manager.Actions

/-!
# A lock beside requests for its status

A request to lock reads the row of a key and then writes over it, and the write does not look whether
the row is still there. A request for a status removes a row that has expired. If that removal falls
between the read and the write, the write finds nothing to overwrite, and the request to lock still
tells that it has written.

* `Event.Purges` — an event removes the row of a key because it has expired;
* `lockBesideStatuses` — one request to lock a key and any number of requests for its status.

Main results:

* `lock?_of_statuses` — requests for a status keep the row of the key or purge it;
* `lock_stands_iff_unpurged` — a lock that a request tells to have written is stored exactly if no
  purge has fallen between its read and its write;
* `lock_lost_to_purge` — a run in which one has.
-/

namespace Latch

open Program (Trace Asks)
open Manager (AsksForStatus)

variable {ι σ : Type}

/-- The event is the conditional removal of the row of a key, which had expired, and the row is gone
after it. -/
def Event.Purges (key : Key) (e : Event ι Effect.Reply Store) : Prop :=
  ∃ now row, e.question = .record (.deleteExpiredLock key now) ∧ e.before.lock? key = some row ∧
    row.unlockTime < now ∧ e.after.lock? key = none

/-- A question of a request for a status keeps the row of the key or purges it. -/
theorem Event.keeps_or_purges {key : Key} {e : Event ι Effect.Reply Store}
    (hAsked : AsksForStatus key e.question)
    (hAnswer : Effect.Answers e.question e.before e.reply e.after) :
    (¬ e.Purges key ∧ e.after.lock? key = e.before.lock? key) ∨ e.Purges key := by
  have hKeeps (h : e.after.lock? key = e.before.lock? key) :
      ¬ e.Purges key ∧ e.after.lock? key = e.before.lock? key := by
    refine ⟨?_, h⟩
    rintro ⟨now, row, -, hBefore, -, hAfter⟩
    rw [h, hBefore] at hAfter
    cases hAfter
  obtain ⟨actor, question, reply, before, after⟩ := e
  cases hAsked with
  | readClock =>
    obtain rfl : after = before := Effect.Answers.clock_eq hAnswer
    exact Or.inl (hKeeps rfl)
  | getLock => exact Or.inl (hKeeps (congrFun hAnswer.lockChange.of_getLock key))
  | deleteExpiredLock now =>
    rcases hAnswer.lockChange.of_deleteExpiredLock with hEq | ⟨row, hRow, hExpired, hRows⟩
    · exact Or.inl (hKeeps (congrFun hEq key))
    · exact Or.inr ⟨now, row, rfl, hRow, Lock.isExpiredAt_iff.mp hExpired, by simp [hRows]⟩

section Statuses

variable [DecidableEq ι] {α : ι → Type} {ps ps' : (i : ι) → Program Effect.Reply (α i)}
  {s s' : Store} {es : List (Event ι Effect.Reply Store)} {key : Key}

/-- Requests for a status keep the row of the key, or one of them purges it and it stays away. -/
theorem lock?_of_statuses (h : Interleaving Effect.Answers ps s es ps' s')
    (hAsked : ∀ e ∈ es, AsksForStatus key e.question) :
    ((∀ e ∈ es, ¬ e.Purges key) ∧ s'.lock? key = s.lock? key) ∨
      ((∃ e ∈ es, e.Purges key) ∧ (s.lock? key).isSome ∧ s'.lock? key = none) := by
  induction h with
  | stop => exact Or.inl ⟨by simp, rfl⟩
  | @turn ps ps' s s₁ s' i q next r es hAsk hAnswer hRest ih =>
    obtain ⟨hHead, hTail⟩ := List.forall_mem_cons.mp hAsked
    rcases Event.keeps_or_purges hHead hAnswer with ⟨hKeeps, hSame⟩ | hPurges
    · -- the rest starts with the same row
      rcases ih hTail with ⟨hNone, hEq⟩ | ⟨⟨e, he, hPurge⟩, hSome, hGone⟩
      · exact Or.inl ⟨List.forall_mem_cons.mpr ⟨hKeeps, hNone⟩, hEq.trans hSame⟩
      · exact Or.inr ⟨⟨e, List.mem_cons_of_mem _ he, hPurge⟩, hSame ▸ hSome, hGone⟩
    · -- no request for a status brings a row back
      obtain ⟨now, row, -, hBefore, -, hAfter⟩ := id hPurges
      have hGone : s'.lock? key = none := by
        rcases ih hTail with ⟨-, hEq⟩ | ⟨-, -, hGone⟩
        · exact hEq.trans hAfter
        · exact hGone
      exact Or.inr ⟨⟨_, List.mem_cons_self .., hPurges⟩, by simp [hBefore], hGone⟩

end Statuses

/-! ## A request to lock among them -/

section Lock

variable {κ : Type} [DecidableEq κ] {key : Key}
  {ps ps' : (i : Option κ) →
    Program Effect.Reply (BesideResult (Except Error LockOutcome) (fun _ => Except Error Lock) i)}
  {s s' : Store} {es : List (Event (Option κ) Effect.Reply Store)}
  {last : Event (Option κ) Effect.Reply Store} {outcome : LockOutcome}

/-- One request to lock a key and any number of requests for its status. -/
def lockBesideStatuses (κ : Type) (enabled : Bool) (key : Key) (duration : Millis)
    (reasonCode reason : Option String) : (i : Option κ) →
      Program Effect.Reply
        (BesideResult (Except Error LockOutcome) (fun _ => Except Error Lock) i) :=
  beside (Manager.lock enabled key duration reasonCode reason).run
    fun _ => (Manager.status enabled key).run

omit [DecidableEq κ] in
theorem asks_lockBesideStatuses {enabled : Bool} {duration : Millis}
    {reasonCode reason : Option String} (i : Option κ) :
    (lockBesideStatuses κ enabled key duration reasonCode reason i).Asks
      fun q => i ≠ none → AsksForStatus key q := by
  cases i with
  | none => exact .of_forall (fun _ hNone => absurd rfl hNone) _
  | some k => exact (Manager.asks_status enabled key).mono fun _ hAsks _ => hAsks

/-- The write of a request to lock ends it, so nothing of it comes before, and the store has carried
it out. -/
theorem write_turn {call : RecordCall}
    (h : Interleaving Effect.Answers ps s (es ++ [last]) ps' s')
    (hAsk : ps none = (Manager.record call >>= fun _ => (pure outcome : Action LockOutcome)).run)
    (hLast : last.actor = none) {result : LockOutcome} (hDone : ps' none = .done (.ok result)) :
    ∃ (ps₁ : (i : Option κ) → Program Effect.Reply _) (s₁ : Store) (value : call.Value),
      (∀ e ∈ es, e.actor ≠ none) ∧ Interleaving Effect.Answers ps s es ps₁ s₁ ∧
      s₁.perform call = (.ok value, s') := by
  rw [run_record_bind] at hAsk
  obtain ⟨ps₁, s₁, r, rfl, hEarly, hRun, hAnswer, hNext⟩ := h.last_turn hAsk
    (fun r => by cases r <;> exact ⟨_, rfl⟩) hLast
  cases r with
  | error e => cases hNext.symm.trans hDone
  | ok value => exact ⟨ps₁, s₁, value, hEarly, hRun, Effect.Answers.perform_eq hAnswer⟩

/-- A row that was missing cannot be purged before it is inserted. -/
theorem insert_after_read {requested : Lock}
    (h : Interleaving Effect.Answers ps s (es ++ [last]) ps' s')
    (hAsk : ps none = (Manager.record (.insertLock key requested) >>= fun _ =>
      (pure .created : Action LockOutcome)).run)
    (hRow : s.lock? key = none)
    (hAsked : ∀ e ∈ es, e.actor ≠ none → AsksForStatus key e.question)
    (hLast : last.actor = none) (hDone : ps' none = .done (.ok outcome)) :
    (∀ e ∈ es, ¬ e.Purges key) ∧ s'.lock? key = some requested := by
  obtain ⟨ps₁, s₁, u, hOthers, hRun, hPerform⟩ := write_turn h hAsk hLast hDone
  have hStored := (Store.perform_insertLock hPerform).2
  -- only requests for a status run before the write
  rcases lock?_of_statuses hRun fun e he => hAsked e he (hOthers e he) with
    ⟨hNone, -⟩ | ⟨-, hSome, -⟩
  · exact ⟨hNone, by simp [hStored]⟩
  · -- there was no row to be purged
    rw [hRow] at hSome
    cases hSome

/-- A row that is to be overwritten may have been purged since it was read, and then nothing is
written. -/
theorem update_after_read {requested old : Lock} {result : LockOutcome}
    (h : Interleaving Effect.Answers ps s (es ++ [last]) ps' s')
    (hAsk : ps none = (Manager.record (.updateLock key requested) >>= fun _ =>
      (pure result : Action LockOutcome)).run)
    (hRow : s.lock? key = some old)
    (hAsked : ∀ e ∈ es, e.actor ≠ none → AsksForStatus key e.question)
    (hLast : last.actor = none) (hDone : ps' none = .done (.ok outcome)) :
    s'.lock? key = some requested ↔ ∀ e ∈ es, ¬ e.Purges key := by
  obtain ⟨ps₁, s₁, u, hOthers, hRun, hPerform⟩ := write_turn h hAsk hLast hDone
  have hStored : s'.lock? key = (s₁.lock? key).map fun _ => requested := by
    rw [Store.perform_updateLock hPerform, Function.update_self]
  rcases lock?_of_statuses hRun fun e he => hAsked e he (hOthers e he) with
    ⟨hNone, hEq⟩ | ⟨⟨e, he, hPurge⟩, -, hGone⟩
  · exact iff_of_true (by rw [hStored, hEq, hRow, Option.map_some]) hNone
  · -- the row is gone, and there is nothing to write over
    refine iff_of_false ?_ fun hNone => hNone e he hPurge
    rw [hStored, hGone, Option.map_none]
    exact (Option.some_ne_none requested).symm

/-- Requests for a status run between the read and the write: what was asked for is stored unless the
row was purged. -/
theorem merge_after_read {requested : Lock} {row : Option Lock}
    (h : Interleaving Effect.Answers ps s (es ++ [last]) ps' s')
    (hAsk : ps none = (Manager.merge key requested row).run) (hRow : row = s.lock? key)
    (hAsked : ∀ e ∈ es, e.actor ≠ none → AsksForStatus key e.question)
    (hLast : last.actor = none) (hDone : ps' none = .done (.ok outcome)) :
    s'.lock? key = some requested ↔ ∀ e ∈ es, ¬ e.Purges key := by
  rcases Manager.merge_cases key requested row with ⟨rfl, hMerge⟩ | ⟨old, rfl, -, hMerge⟩ |
    ⟨old, rfl, -, -, hMerge⟩ | ⟨old, rfl, -, -, hMerge⟩ <;> rw [hMerge] at hAsk
  · obtain ⟨hNone, hStored⟩ := insert_after_read h hAsk hRow.symm hAsked hLast hDone
    exact iff_of_true hStored hNone
  · exact update_after_read h hAsk hRow.symm hAsked hLast hDone
  · exact update_after_read h hAsk hRow.symm hAsked hLast hDone
  · -- a request that writes nothing asks nothing more
    obtain ⟨hNoTurn, -⟩ := h.done_of_done hAsk
    exact absurd hLast (hNoTurn last (by simp))

/-- A request that is done as soon as it has read the row writes nothing. -/
theorem isWrite_of_merge_done {requested : Lock} {row : Option Lock}
    (h : (Manager.merge key requested row).run = .done (.ok outcome)) : outcome.isWrite = false := by
  rcases Manager.merge_cases key requested row with ⟨-, hMerge⟩ | ⟨-, -, -, hMerge⟩ |
    ⟨-, -, -, -, hMerge⟩ | ⟨-, -, -, -, hMerge⟩ <;> rw [hMerge] at h
  · cases h
  · cases h
  · cases h
  · cases h
    rfl

theorem lockUntil_run {requested : Lock}
    (h : Interleaving Effect.Answers ps s (es ++ [last]) ps' s')
    (hAsk : ps none = (Manager.lockUntil key requested).run)
    (hAsked : ∀ e ∈ es, e.actor ≠ none → AsksForStatus key e.question)
    (hLast : last.actor = none) (hDone : ps' none = .done (.ok outcome))
    (hWrite : outcome.isWrite = true) :
    ∃ early read late, es = early ++ read :: late ∧ (∀ e ∈ early, e.actor ≠ none) ∧
      read.actor = none ∧ read.question = .record (.getLock key) ∧
      (s'.lock? key = some requested ↔ ∀ e ∈ late, ¬ e.Purges key) := by
  replace hAsk := hAsk.trans (run_record_bind (.getLock key) (Manager.merge key requested))
  -- the request does not end with its read, for then it would not have written
  obtain ⟨early, late, ps₁, s₁, s₂, r, rfl, hEarly, hRead, hRest⟩ :=
    h.inner_turn hAsk (fun r hNext => by
      cases r with
      | ok row => simp [isWrite_of_merge_done hNext] at hWrite
      | error e => cases hNext) hLast hDone
  cases r with
  | error e =>
    -- a read that fails ends the request with its error
    obtain ⟨-, hEnd⟩ := hRest.done_of_done (Function.update_self ..)
    cases hEnd.symm.trans hDone
  | ok row =>
    obtain ⟨hRow, rfl⟩ := Store.perform_getLock hRead.perform_eq
    refine ⟨early, _, late, rfl, hEarly, rfl, rfl, ?_⟩
    refine merge_after_read hRest (Function.update_self ..) hRow (fun e he => ?_) hLast hDone
    exact hAsked e (by simp [he])

/-- **A lock that a request tells to have written is stored exactly if no purge has fallen between
its read and its write.** A request to lock a key is carried out beside any number of requests for
the status of that key, and makes the last call of the run. -/
theorem lock_stands_iff_unpurged {enabled : Bool} {duration : Millis}
    {reasonCode reason : Option String}
    (h : Interleaving Effect.Answers
      (lockBesideStatuses κ enabled key duration reasonCode reason) s (es ++ [last]) ps' s')
    (hLast : last.actor = none) (hDone : ps' none = .done (.ok outcome))
    (hWrite : outcome.isWrite = true) :
    ∃ now early read late, es = early ++ read :: late ∧
      readings (early.filter (·.actor = none)) = (if duration < 0 then [] else [now]) ∧
      read.actor = none ∧ read.question = .record (.getLock key) ∧
      (s'.lock? key = some (.lockedUntil (Lock.target now duration) reasonCode reason) ↔
        ∀ e ∈ late, ¬ e.Purges key) := by
  have hAsked : ∀ e ∈ es, e.actor ≠ none → AsksForStatus key e.question := fun e he =>
    (h.asked asks_lockBesideStatuses).1 e (by simp [he])
  cases enabled with
  | false =>
    -- the request asks nothing, so the last call is not its own
    obtain ⟨hNone, -⟩ := h.done_of_done (i := none) rfl
    exact absurd hLast (hNone last (by simp))
  | true =>
    by_cases hDuration : duration < 0
    · have hAsk : lockBesideStatuses κ true key duration reasonCode reason none =
          (Manager.lockUntil key (.lockedUntil .last reasonCode reason)).run :=
        congrArg ExceptT.run (Manager.lock_of_neg hDuration)
      obtain ⟨early, read, late, rfl, hEarly, hActor, hRead, hIff⟩ :=
        lockUntil_run h hAsk hAsked hLast hDone hWrite
      -- no time is read, and none is needed
      refine ⟨0, early, read, late, rfl, ?_, hActor, hRead, ?_⟩
      · rw [List.filter_eq_nil_iff.mpr (by simpa using hEarly), if_pos hDuration]
        rfl
      · rw [Lock.target, if_pos hDuration]
        exact hIff
    · have hAsk : lockBesideStatuses κ true key duration reasonCode reason none =
          (Manager.now >>= fun now =>
            Manager.lockUntil key (.lockedUntil (now.later duration) reasonCode reason)).run :=
        congrArg ExceptT.run (Manager.lock_of_not_neg hDuration)
      -- the clock is read first, and what remains is as above
      obtain ⟨before, rest, ps₁, s₁, s₂, now, rfl, hBefore, -, hRest⟩ :=
        h.inner_turn hAsk nofun hLast hDone
      obtain ⟨between, read, late, rfl, hBetween, hActor, hRead, hIff⟩ :=
        lockUntil_run hRest (Function.update_self ..) (fun e he => hAsked e (by simp [he])) hLast
          hDone hWrite
      refine ⟨now, before ++ ⟨none, .readClock, now, s₁, s₂⟩ :: between, read, late, by simp, ?_,
        hActor, hRead, ?_⟩
      · rw [List.filter_append, List.filter_eq_nil_iff.mpr (by simpa using hBefore),
          List.filter_cons_of_pos (by simp), List.filter_eq_nil_iff.mpr (by simpa using hBetween),
          if_neg hDuration]
        rfl
      · have hTarget : Lock.target now duration = now.later duration := if_neg hDuration
        rw [hTarget]
        exact hIff

/-! A lock of five seconds is asked for beside one request for the status, when there is a row. -/

def fiveSeconds : (i : Option Unit) →
    Program Effect.Reply (BesideResult (Except Error LockOutcome) (fun _ => Except Error Lock) i) :=
  lockBesideStatuses Unit true ⟨"alice", 1, "sms-otp"⟩ 5000 (some "NEW") none

def lockedBefore (unlockTime : Millis) : Store :=
  .holding ⟨"alice", 1, "sms-otp"⟩ (.lockedUntil unlockTime none none)

/-- The status is read between the read and the write, when the row has not expired. -/
def lockSeen : Played (BesideResult (Except Error LockOutcome) fun _ : Unit => Except Error Lock)
    Effect.Reply Store :=
  play Effect.answer [(none, 2000), (none, 0), (some (), 0), (some (), 2000), (none, 0)]
    fiveSeconds (lockedBefore 3000)

theorem lock_stands_iff_unpurged_extended :
    lockSeen.programs none = .done (.ok .extended) ∧
      ∃ now early read late, lockSeen.events.dropLast = early ++ read :: late ∧
        readings (early.filter (·.actor = none)) = [now] ∧
        read.actor = none ∧ read.question = .record (.getLock ⟨"alice", 1, "sms-otp"⟩) ∧
        (lockSeen.state.lock? ⟨"alice", 1, "sms-otp"⟩ =
            some (.lockedUntil (Lock.target now 5000) (some "NEW") none) ↔
          ∀ e ∈ late, ¬ e.Purges ⟨"alice", 1, "sms-otp"⟩) := by
  have hRun : Interleaving Effect.Answers fiveSeconds (lockedBefore 3000)
      (lockSeen.events.dropLast ++ [lockSeen.events.getLast nofun]) lockSeen.programs
      lockSeen.state := by
    rw [List.dropLast_concat_getLast]
    exact Effect.answers_play _ _ _
  have hDone : lockSeen.programs none = .done (.ok .extended) := by rfl
  exact ⟨hDone, lock_stands_iff_unpurged hRun rfl hDone rfl⟩

/-- The status is read between the read and the write, when the row has expired, and purges it. -/
def lockLost : Played (BesideResult (Except Error LockOutcome) fun _ : Unit => Except Error Lock)
    Effect.Reply Store :=
  play Effect.answer
    [(none, 2000), (none, 0), (some (), 0), (some (), 2000), (some (), 0), (none, 0)]
    fiveSeconds (lockedBefore 1000)

/-- **A lock can be lost to a purge.** The surroundings never fail and the clock stands still; the
request to lock makes the last call and tells that it has extended the lock, and nothing is stored. -/
theorem lock_lost_to_purge :
    Interleaving Effect.Reliable fiveSeconds (lockedBefore 1000) lockLost.events lockLost.programs
        lockLost.state ∧
      (readings lockLost.events).Pairwise (· ≤ ·) ∧
      lockLost.events.getLast?.map Event.actor = some none ∧
      lockLost.programs none = .done (.ok .extended) ∧ LockOutcome.extended.isWrite = true ∧
      lockLost.state.lock? ⟨"alice", 1, "sms-otp"⟩ = none := by
  have hReadings : readings lockLost.events = [2000, 2000] := by rfl
  refine ⟨interleaving_play Effect.reliable_answer _ _ _, ?_, by rfl, by rfl, rfl, by rfl⟩
  rw [hReadings]
  decide

end Lock

end Latch
