import Latch.Proofs.Manager.Actions

/-!
# The status of a lock beside other users of the store

A request for a status reads a row, removes it by a conditional removal if it has expired, and reads
once more if there was nothing to remove. Whatever else happens to the store before, between and
after these calls, the answer is what one of them has seen, and only an expired row is removed.

* `Event.Viewed` — an answer is what a record call of the run saw;
* `Event.SparesUnexpired` — an event leaves the lock rows alone or removes an expired one.

Main results:

* `statusAfterPurge_trace`, `purge_trace`, `status_trace` — the same for each part of the request;
* `status_linearizable` — the request beside any other programs.
-/

namespace Latch

open Program (Trace Asks)

variable {ι β : Type} {drift : Store → Store → Prop} {actor : ι} {key : Key} {now : Millis}
  {s s' : Store} {es : List (Event ι Effect.Reply Store)}

/-- The status is what a row stood for at the moment of one of the record calls. -/
def Viewed (key : Key) (now : Millis) (es : List (Event ι Effect.Reply Store)) (status : Lock) :
    Prop :=
  ∃ e ∈ es, e.IsRecord ∧ status = Lock.seen now (e.before.lock? key)

/-- The event leaves the lock rows alone, or is the conditional removal of the row of a key and has
removed a row whose unlock time lay before the given moment. -/
def Event.SparesUnexpired (key : Key) (now : Millis) (e : Event ι Effect.Reply Store) : Prop :=
  e.after.lock? = e.before.lock? ∨
    ∃ row, e.question = .record (.deleteExpiredLock key now) ∧ e.before.lock? key = some row ∧
      row.unlockTime < now ∧ e.after.lock? = Function.update e.before.lock? key none

theorem Viewed.cons {status : Lock} {e : Event ι Effect.Reply Store} (h : Viewed key now es status) :
    Viewed key now (e :: es) status := by
  obtain ⟨e', he', hView⟩ := h
  exact ⟨e', List.mem_cons_of_mem _ he', hView⟩

theorem Viewed.head {e : Event ι Effect.Reply Store} (hRecord : e.IsRecord) :
    Viewed key now (e :: es) (Lock.seen now (e.before.lock? key)) :=
  ⟨e, List.mem_cons_self .., hRecord, rfl⟩

/-- A read leaves the rows alone, also when it fails. -/
theorem sparesUnexpired_getLock {s₁ s₂ : Store} {r : (RecordCall.getLock key).Reply}
    (h : (RecordCall.getLock key).Partly s₁ s₂) :
    Event.SparesUnexpired key now ⟨actor, .record (.getLock key), r, s₁, s₂⟩ :=
  Or.inl h.lockChange.of_getLock

/-- So does the conditional removal, unless the row has expired at that very moment. -/
theorem sparesUnexpired_deleteExpiredLock {s₁ s₂ : Store}
    {r : (RecordCall.deleteExpiredLock key now).Reply}
    (h : (RecordCall.deleteExpiredLock key now).Partly s₁ s₂) :
    Event.SparesUnexpired key now ⟨actor, .record (.deleteExpiredLock key now), r, s₁, s₂⟩ := by
  rcases h.lockChange.of_deleteExpiredLock with hEq | ⟨row, hRow, hExpired, hRows⟩
  · exact Or.inl hEq
  · exact Or.inr ⟨row, rfl, hRow, Lock.isExpiredAt_iff.mp hExpired, hRows⟩

/-- What holds of a part of the request that knows the time: the clock is not read, an answer is
what a record call saw, and only an expired row is removed. -/
structure StatusTrace (key : Key) (now : Millis) (es : List (Event ι Effect.Reply Store))
    (p : Program Effect.Reply (Except Error Lock)) : Prop where
  unread : readings es = []
  viewed : ∀ status, p = .done (.ok status) → Viewed key now es status
  spares : ∀ e ∈ es, e.SparesUnexpired key now

namespace StatusTrace

theorem nil {p : Program Effect.Reply (Except Error Lock)}
    (hOpen : ∀ status, p ≠ .done (.ok status)) :
    StatusTrace key now ([] : List (Event ι Effect.Reply Store)) p :=
  ⟨rfl, fun status hDone => absurd hDone (hOpen status), by simp⟩

theorem cons {p : Program Effect.Reply (Except Error Lock)} {e : Event ι Effect.Reply Store}
    (hUnread : e.reading? = none) (hSpares : e.SparesUnexpired key now)
    (h : StatusTrace key now es p) : StatusTrace key now (e :: es) p where
  unread := by rw [readings, List.filterMap_cons_none hUnread]; exact h.unread
  viewed status hDone := (h.viewed status hDone).cons
  spares e' he' := by
    rcases List.mem_cons.mp he' with rfl | he'
    · exact hSpares
    · exact h.spares e' he'

/-- A record call ends the request with what it saw. -/
theorem last {e : Event ι Effect.Reply Store} (hRecord : e.IsRecord) (hUnread : e.reading? = none)
    (hSpares : e.SparesUnexpired key now) {status : Lock}
    (hView : status = Lock.seen now (e.before.lock? key)) :
    StatusTrace key now [e] (.done (.ok status)) where
  unread := by rw [readings, List.filterMap_cons_none hUnread]; rfl
  viewed status' hDone := by
    cases hDone
    exact hView ▸ Viewed.head hRecord
  spares := by simpa using hSpares

end StatusTrace

/-! ## The parts of the request -/

theorem statusAfterPurge_eq (key : Key) (now : Millis) :
    Manager.statusAfterPurge key now = (do
      let row ← Manager.record (.getLock key)
      return Lock.seen now row) := by
  refine congrArg (Manager.record (.getLock key) >>= ·) (funext fun row => ?_)
  cases row with
  | none => rfl
  | some lock =>
    cases hExpired : lock.isExpiredAt now with
    | true => simp [Lock.seen_of_expired hExpired, hExpired]
    | false => simp [Lock.seen_of_not_expired hExpired, hExpired]

theorem statusAfterPurge_trace {p : Program Effect.Reply (Except Error Lock)}
    (h : Trace Effect.Answers drift actor (Manager.statusAfterPurge key now).run s es p s') :
    StatusTrace key now es p := by
  rw [statusAfterPurge_eq] at h
  rcases Trace.record_cases h with ⟨rfl, rfl, -⟩ | ⟨s₁, s₂, row, rest, rfl, -, hPerform, hRest⟩ |
    ⟨s₁, s₂, e, rfl, -, hPartly, rfl, -⟩
  · exact .nil nofun
  · obtain ⟨hRow, rfl⟩ := Store.perform_getLock hPerform
    obtain ⟨rfl, rfl, -⟩ := hRest.done_inv
    exact .last ⟨_, rfl⟩ rfl (Or.inl rfl) (hRow ▸ rfl)
  · exact .cons rfl (sparesUnexpired_getLock hPartly) (.nil nofun)

theorem purge_trace {p : Program Effect.Reply (Except Error Lock)}
    (h : Trace Effect.Answers drift actor (Manager.purge key now).run s es p s') :
    StatusTrace key now es p := by
  rcases Trace.record_cases h with ⟨rfl, rfl, -⟩ |
    ⟨s₁, s₂, removed, rest, rfl, -, hPerform, hRest⟩ | ⟨s₁, s₂, e, rfl, -, hPartly, rfl, -⟩
  · exact .nil nofun
  · have hSpares : Event.SparesUnexpired key now
        ⟨actor, .record (.deleteExpiredLock key now), .ok removed, s₁, s₂⟩ :=
      sparesUnexpired_deleteExpiredLock (.of_perform hPerform)
    obtain ⟨hRemoved, -⟩ := Store.perform_deleteExpiredLock hPerform
    cases removed with
    | true =>
      -- the removal itself has seen an expired row
      obtain ⟨rfl, rfl, -⟩ := hRest.done_inv
      refine .last ⟨_, rfl⟩ rfl hSpares ?_
      obtain ⟨row, hRow, hExpired⟩ := (Option.any_eq_true _ _).mp hRemoved.symm
      rw [hRow, Lock.seen_of_expired hExpired]
    | false => exact .cons rfl hSpares (statusAfterPurge_trace hRest)
  · exact .cons rfl (sparesUnexpired_deleteExpiredLock hPartly) (.nil nofun)

/-- What holds of the whole request: the clock is read at most once, and with that reading the rest
holds as for its parts. -/
def StatusRun (key : Key) (es : List (Event ι Effect.Reply Store))
    (p : Program Effect.Reply (Except Error Lock)) : Prop :=
  (readings es).length ≤ 1 ∧ ∀ now, (∀ m ∈ readings es, m = now) →
    (∀ status, p = .done (.ok status) → Viewed key now es status) ∧
    ∀ e ∈ es, e.SparesUnexpired key now

theorem StatusRun.of_unread {p : Program Effect.Reply (Except Error Lock)}
    (h : ∀ now, StatusTrace key now es p) : StatusRun key es p := by
  refine ⟨?_, fun now _ => ⟨(h now).viewed, (h now).spares⟩⟩
  rw [(h 0).unread]
  simp

/-- The first read has seen a row; what remains reads the clock, and removes the row if it has
expired. -/
theorem StatusRun.of_read {read : Event ι Effect.Reply Store} {lock : Lock}
    {p : Program Effect.Reply (Except Error Lock)} (hRecord : read.IsRecord)
    (hUnread : read.reading? = none) (hSame : read.after.lock? = read.before.lock?)
    (hRow : read.before.lock? key = some lock)
    (h : Trace Effect.Answers drift actor (Manager.statusOf key (some lock)).run s es p s') :
    StatusRun key (read :: es) p := by
  have hRead : ∀ now, read.SparesUnexpired key now := fun _ => Or.inl hSame
  rcases Trace.now_cases h with ⟨rfl, rfl, -⟩ | ⟨s₁, rest, clock, rfl, -, hRest⟩
  · exact .of_unread fun now => .cons hUnread (hRead now) (.nil nofun)
  · have hClock : ∀ now, Event.SparesUnexpired key now ⟨actor, .readClock, clock, s₁, s₁⟩ :=
      fun _ => Or.inl rfl
    have hReadings : readings (read :: ⟨actor, .readClock, clock, s₁, s₁⟩ :: rest) =
        clock :: readings rest := by
      rw [readings, List.filterMap_cons_none hUnread]
      rfl
    rw [StatusRun, hReadings]
    cases hExpired : lock.isExpiredAt clock with
    | true =>
      -- what remains knows the time and does not read the clock again
      rw [hExpired, if_pos rfl] at hRest
      have hPurge := purge_trace hRest
      refine ⟨by simp [hPurge.unread], fun now hNow => ?_⟩
      obtain rfl : clock = now := hNow clock (List.mem_cons_self ..)
      exact ⟨fun status hDone => (hPurge.viewed status hDone).cons.cons,
        List.forall_mem_cons.mpr ⟨hRead _, List.forall_mem_cons.mpr ⟨hClock _, hPurge.spares⟩⟩⟩
    | false =>
      -- the row that was read is the answer, as it was at the read
      rw [hExpired, if_neg Bool.false_ne_true] at hRest
      obtain ⟨rfl, rfl, -⟩ := hRest.done_inv
      refine ⟨by simp [readings], fun now hNow => ?_⟩
      obtain rfl : clock = now := hNow clock (List.mem_cons_self ..)
      refine ⟨fun status hDone => ?_,
        List.forall_mem_cons.mpr ⟨hRead _, List.forall_mem_cons.mpr ⟨hClock _, by simp⟩⟩⟩
      cases hDone
      refine ⟨read, List.mem_cons_self .., hRecord, ?_⟩
      rw [hRow, Lock.seen_of_not_expired hExpired]

theorem status_trace {enabled : Bool} {p : Program Effect.Reply (Except Error Lock)}
    (h : Trace Effect.Answers drift actor (Manager.status enabled key).run s es p s') :
    StatusRun key es p := by
  cases enabled with
  | false =>
    obtain ⟨rfl, rfl, -⟩ := h.done_inv
    exact .of_unread fun now => .nil nofun
  | true =>
    rw [Manager.status_eq] at h
    rcases Trace.record_cases h with ⟨rfl, rfl, -⟩ | ⟨s₁, s₂, row, rest, rfl, -, hPerform, hRest⟩ |
      ⟨s₁, s₂, e, rfl, -, hPartly, rfl, -⟩
    · exact .of_unread fun now => .nil nofun
    · obtain ⟨hRow, rfl⟩ := Store.perform_getLock hPerform
      cases row with
      | none =>
        obtain ⟨rfl, rfl, -⟩ := hRest.done_inv
        refine .of_unread fun now => .last ⟨_, rfl⟩ rfl (Or.inl rfl) ?_
        rw [← hRow, Lock.seen_none]
      | some lock => exact .of_read ⟨_, rfl⟩ rfl rfl hRow.symm hRest
    · exact .of_unread fun now => .cons rfl (sparesUnexpired_getLock hPartly) (.nil nofun)

/-! ## The request beside other programs -/

section Beside

variable {κ : Type} [DecidableEq κ] {γ : κ → Type}

/-- **A status is linearizable and its purge is safe.** Beside any other programs, which may insert,
update and remove rows before, between and after its record calls, a request for a status reads the
clock at most once, and with that reading:

* a status that it returns is what the row of the key stood for at the moment of one of its record
  calls, so it is "unlocked" or has not expired;
* it changes no row but by the conditional removal, and removes only a row of the key whose unlock
  time lies before the reading at that very moment;
* so it never removes a row that has not expired. -/
theorem status_linearizable {enabled : Bool} {key : Key}
    {others : (k : κ) → Program Effect.Reply (γ k)}
    {s s' : Store} {es : List (Event (Option κ) Effect.Reply Store)}
    {ps : (i : Option κ) → Program Effect.Reply (BesideResult (Except Error Lock) γ i)}
    (h : Interleaving Effect.Answers (beside (Manager.status enabled key).run others) s es ps s') :
    (readings (es.filter (·.actor = none))).length ≤ 1 ∧
    ∀ now, (∀ m ∈ readings (es.filter (·.actor = none)), m = now) →
      (∀ status, ps none = .done (.ok status) →
        (∃ e ∈ es, e.actor = none ∧ e.IsRecord ∧ status = Lock.seen now (e.before.lock? key)) ∧
        (status = Lock.unlocked ∨ now ≤ status.unlockTime)) ∧
      (∀ e ∈ es, e.actor = none → e.SparesUnexpired key now) ∧
      ∀ e ∈ es, e.actor = none → ∀ k row, e.before.lock? k = some row → now ≤ row.unlockTime →
        e.after.lock? k = some row := by
  obtain ⟨hOnce, hRun⟩ := status_trace (h.trace none)
  refine ⟨hOnce, fun now hNow => ?_⟩
  obtain ⟨hViewed, hSpares⟩ := hRun now hNow
  -- the events of the request are those of the trace
  have hOwn : ∀ e ∈ es, e.actor = none → e.SparesUnexpired key now := fun e he hActor =>
    hSpares e (List.mem_filter.mpr ⟨he, by simpa using hActor⟩)
  refine ⟨fun status hDone => ?_, hOwn, fun e he hActor k row hRow hLe => ?_⟩
  · obtain ⟨e, he, hRecord, rfl⟩ := hViewed status hDone
    obtain ⟨hMem, hActor⟩ := List.mem_filter.mp he
    exact ⟨⟨e, hMem, by simpa using hActor, hRecord, rfl⟩, Lock.seen_cases now _⟩
  · rcases hOwn e he hActor with hEq | ⟨old, -, hOld, hLt, hAfter⟩
    · rw [hEq, hRow]
    · -- what was removed had expired, so it is not this row
      by_cases hk : k = key
      · subst hk
        cases hRow.symm.trans hOld
        exact absurd hLt (Int64.not_lt.mpr hLe)
      · rw [hAfter, Function.update_of_ne hk, hRow]

/-- A lock that is written while a status is read. -/
def relock : Lock := .lockedUntil .last (some "NEW") none

def statusBesideRelock :
    (i : Option Unit) →
      Program Effect.Reply (BesideResult (Except Error Lock) (fun _ => Except Error Unit) i) :=
  beside (Manager.status true ⟨"alice", 1, "sms-otp"⟩).run
    fun _ => (Manager.record (.updateLock ⟨"alice", 1, "sms-otp"⟩ relock)).run

/-- The row has expired at the first read and is overwritten before the removal. -/
def relockedWhileRead :
    Played (BesideResult (Except Error Lock) fun _ : Unit => Except Error Unit) Effect.Reply Store :=
  play Effect.answer [(none, 0), (some (), 0), (none, 2000), (none, 0), (none, 0)]
    statusBesideRelock (.holding ⟨"alice", 1, "sms-otp"⟩ (.lockedUntil 1900 (some "OLD") none))

theorem status_linearizable_relocked :
    relockedWhileRead.programs none = .done (.ok relock) ∧
      (∀ m ∈ readings (relockedWhileRead.events.filter (·.actor = none)), m = 2000) ∧
      (∃ e ∈ relockedWhileRead.events, e.actor = none ∧ e.IsRecord ∧
        relock = Lock.seen 2000 (e.before.lock? ⟨"alice", 1, "sms-otp"⟩)) ∧
      ∀ e ∈ relockedWhileRead.events, e.actor = none →
        e.SparesUnexpired ⟨"alice", 1, "sms-otp"⟩ 2000 := by
  have hRun : Interleaving Effect.Answers statusBesideRelock _ relockedWhileRead.events
    relockedWhileRead.programs relockedWhileRead.state := Effect.answers_play _ _ _
  have hReadings : readings (relockedWhileRead.events.filter (·.actor = none)) = [2000] := by rfl
  have hNow : ∀ m ∈ readings (relockedWhileRead.events.filter (·.actor = none)), m = 2000 := by
    simp [hReadings]
  have hDone : relockedWhileRead.programs none = .done (.ok relock) := by rfl
  obtain ⟨hViewed, hSpares, -⟩ := (status_linearizable hRun).2 2000 hNow
  exact ⟨hDone, hNow, (hViewed relock hDone).1, hSpares⟩

end Beside

end Latch
