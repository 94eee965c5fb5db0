import Latch.Proofs.Lock.StatusView
import Latch.Proofs.Manager.Serial

/-!
# A lock in force

A lock that is active stays so until its unlock time, whatever is asked for, however the clock moves
and whichever calls fail, unless somebody unlocks its key. Only a request to lock the key for longer
replaces it.

* `Store.LockedUntil` — the lock of a key is active and lasts to a moment at least;
* `Event.KeepsOrProlongs` — an event leaves the lock of a key alone or replaces it by a longer one.

Main results:

* `lockUntil_keepsOrProlongs`, `status_keeps` — what the requests about the key do to such a lock;
* `lock_in_force` — it stays in force along every run.
-/

namespace Latch

open Program (Trace)

/-- The lock of a key is active and lasts to a moment at least. -/
def Store.LockedUntil (key : Key) (moment : Millis) (s : Store) : Prop :=
  ∃ row, s.lock? key = some row ∧ row.locked = true ∧ moment ≤ row.unlockTime

/-- The event leaves the lock of a key alone, or is the write of a request to lock that key, and the
lock is replaced as a whole by the one that was asked for, which ends later. -/
def Event.KeepsOrProlongs (key : Key) (e : Event Request Effect.Reply Store) : Prop :=
  e.after.lock? key = e.before.lock? key ∨
    ∃ duration reasonCode reason unlockTime old,
      e.actor = .lock key duration reasonCode reason ∧
      e.question = .record (.updateLock key (.lockedUntil unlockTime reasonCode reason)) ∧
      e.before.lock? key = some old ∧ old.unlockTime < unlockTime ∧
      e.after.lock? key = some (.lockedUntil unlockTime reasonCode reason)

variable {key : Key} {moment : Millis} {s s' : Store} {es : List (Event Request Effect.Reply Store)}

theorem Event.KeepsOrProlongs.lockedUntil {e : Event Request Effect.Reply Store}
    (h : e.KeepsOrProlongs key) (hBefore : e.before.LockedUntil key moment) :
    e.after.LockedUntil key moment := by
  obtain ⟨row, hRow, hLocked, hLe⟩ := hBefore
  rcases h with hKeeps | ⟨duration, reasonCode, reason, unlockTime, old, -, -, hOld, hLt, hAfter⟩
  · exact ⟨row, hKeeps.trans hRow, hLocked, hLe⟩
  · cases hRow.symm.trans hOld
    exact ⟨_, hAfter, rfl, Int64.le_trans hLe (Int64.le_of_lt hLt)⟩

/-! ## Requests to lock the key -/

section Locks

variable {ι : Type} {actor : ι} {requested row : Lock} {es : List (Event ι Effect.Reply Store)}

/-- A write that ends a request overwrites what is stored then, or nothing. -/
theorem update_trace {outcome : LockOutcome} {p : Program Effect.Reply (Except Error LockOutcome)}
    (h : Trace Effect.Answers (· = ·) actor
      (Manager.record (.updateLock key requested) >>= fun _ => (pure outcome : Action _)).run
      s es p s') :
    ∀ e ∈ es, e.question = .record (.updateLock key requested) ∧ e.before = s ∧
      (e.after.lock? key = e.before.lock? key ∨ e.after.lock? key = some requested) := by
  have hWrite {s₂ : Store} (hPartly : (RecordCall.updateLock key requested).Partly s s₂) :
      s₂.lock? key = s.lock? key ∨ s₂.lock? key = some requested := by
    rcases hPartly.lockChange.of_updateLock with hEq | ⟨old, -, hRows⟩
    · exact Or.inl (congrFun hEq key)
    · exact Or.inr (by rw [hRows, Function.update_self])
  rcases Trace.record_cases h with ⟨rfl, -, -⟩ | ⟨s₁, s₂, u, rest, rfl, rfl, hPerform, hRest⟩ |
    ⟨s₁, s₂, e, rfl, rfl, hPartly, -, -⟩
  · simp
  · obtain ⟨rfl, -, -⟩ := hRest.done_inv
    simpa using hWrite (.of_perform hPerform)
  · simpa using hWrite hPartly

/-- A request to lock prolongs an active lock, or leaves it alone. -/
theorem lockUntil_keepsOrProlongs {p : Program Effect.Reply (Except Error LockOutcome)}
    (h : Trace Effect.Answers (· = ·) actor (Manager.lockUntil key requested).run s es p s')
    (hRow : s.lock? key = some row) (hLocked : row.locked = true) :
    ∀ e ∈ es, e.after.lock? key = e.before.lock? key ∨
      (e.question = .record (.updateLock key requested) ∧ e.before.lock? key = some row ∧
        row.unlockTime < requested.unlockTime ∧ e.after.lock? key = some requested) := by
  rcases Trace.record_cases h with ⟨rfl, -, -⟩ | ⟨s₁, s₂, read, rest, rfl, rfl, hPerform, hRest⟩ |
    ⟨s₁, s₂, e, rfl, rfl, hPartly, -, -⟩
  · simp
  · obtain ⟨rfl, rfl⟩ := Store.perform_getLock hPerform
    refine List.forall_mem_cons.mpr ⟨Or.inl rfl, ?_⟩
    rw [hRow] at hRest
    -- the row that was read is there and active, so it is prolonged or left alone
    rcases Manager.merge_cases key requested (some row) with ⟨hNone, -⟩ | ⟨old, hOld, hOpen, -⟩ |
      ⟨old, hOld, -, hLt, hMerge⟩ | ⟨old, hOld, -, -, hMerge⟩
    · cases hNone
    · cases hOld
      rw [hLocked] at hOpen
      cases hOpen
    · cases hOld
      rw [hMerge] at hRest
      intro e he
      obtain ⟨hQuestion, hBefore, hKeeps | hAfter⟩ := update_trace hRest e he
      · exact Or.inl hKeeps
      · exact Or.inr ⟨hQuestion, hBefore ▸ hRow, hLt, hAfter⟩
    · rw [hMerge] at hRest
      obtain ⟨rfl, -, -⟩ := hRest.done_inv
      simp
  · simpa using congrFun hPartly.lockChange.of_getLock key

end Locks

/-- The same for a whole request, whether or not it reads the clock. -/
theorem lock_keepsOrProlongs {enabled : Bool} {duration : Millis}
    {reasonCode reason : Option String} {p : Program Effect.Reply (Except Error LockOutcome)}
    (h : Trace Effect.Answers (· = ·) (Request.lock key duration reasonCode reason)
      (Manager.lock enabled key duration reasonCode reason).run s es p s')
    (hs : s.LockedUntil key moment) : ∀ e ∈ es, e.KeepsOrProlongs key := by
  obtain ⟨row, hRow, hLocked, -⟩ := hs
  have hUntil {unlockTime : Millis} {rest : List (Event Request Effect.Reply Store)}
      (hRest : Trace Effect.Answers (· = ·) (Request.lock key duration reasonCode reason)
        (Manager.lockUntil key (.lockedUntil unlockTime reasonCode reason)).run s rest p s') :
      ∀ e ∈ rest, e.KeepsOrProlongs key := by
    intro e he
    rcases lockUntil_keepsOrProlongs hRest hRow hLocked e he with
      hKeeps | ⟨hQuestion, hBefore, hLt, hAfter⟩
    · exact Or.inl hKeeps
    · exact Or.inr ⟨duration, reasonCode, reason, unlockTime, row, hRest.actor_eq e he, hQuestion,
        hBefore, hLt, hAfter⟩
  cases enabled with
  | false =>
    -- nothing is asked while the switch is off
    obtain ⟨rfl, -, -⟩ := h.done_inv
    simp
  | true =>
    by_cases hDuration : duration < 0
    · rw [Manager.lock_of_neg hDuration] at h
      exact hUntil h
    · rw [Manager.lock_of_not_neg hDuration] at h
      rcases Trace.now_cases h with ⟨rfl, -, -⟩ | ⟨s₁, rest, now, rfl, rfl, hRest⟩
      · simp
      · exact List.forall_mem_cons.mpr ⟨Or.inl rfl, hUntil hRest⟩

/-! ## Requests for the status of the key -/

/-- A request for a status that reads the clock at no time past the lock leaves it alone. -/
theorem status_keeps {enabled : Bool} {p : Program Effect.Reply (Except Error Lock)}
    (h : Trace Effect.Answers (· = ·) (Request.status key) (Manager.status enabled key).run
      s es p s')
    (hClock : ∀ e ∈ es, ∀ now, e.reading? = some now → now ≤ moment) :
    ∀ e ∈ es, e.before.LockedUntil key moment → e.after.lock? key = e.before.lock? key := by
  obtain ⟨hOnce, hRun⟩ := status_trace h
  have hReadings : ∀ now ∈ readings es, now ≤ moment := by
    intro now hNow
    obtain ⟨e, he, hReading⟩ := List.mem_filterMap.mp hNow
    exact hClock e he now hReading
  -- the moment that the request takes for the present, if it reads the clock at all
  obtain ⟨now, hNow, hLe⟩ : ∃ now, (∀ m ∈ readings es, m = now) ∧ now ≤ moment := by
    cases hEq : readings es with
    | nil => exact ⟨moment, by simp, Int64.le_refl _⟩
    | cons now rest =>
      rw [hEq] at hOnce
      obtain rfl : rest = [] := List.length_eq_zero_iff.mp (by simpa using hOnce)
      exact ⟨now, by simp, hReadings now (by simp [hEq])⟩
  -- only a row that has expired at that moment is removed
  rintro e he ⟨row, hRow, -, hUntil⟩
  rcases (hRun now hNow).2 e he with hEq | ⟨old, -, hOld, hLt, -⟩
  · rw [hEq]
  · cases hRow.symm.trans hOld
    exact absurd hLt (Int64.not_lt.mpr (Int64.le_trans hLe hUntil))

/-! ## Runs -/

/-- What one request does to a lock in force. -/
theorem action_keepsOrProlongs {request : Request} {enabled : Bool}
    {p : Program Effect.Reply (Except Error request.Answer)}
    (h : Trace Effect.Answers (· = ·) request (request.action enabled).run s es p s')
    (hUnlock : ∀ e ∈ es, e.actor ≠ .unlock key)
    (hClock : ∀ e ∈ es, e.actor = .status key → ∀ now, e.reading? = some now → now ≤ moment)
    (hs : s.LockedUntil key moment) :
    ∀ e ∈ es, e.before.LockedUntil key moment → e.KeepsOrProlongs key := by
  intro e he hBefore
  have hActor := h.actor_eq
  by_cases hOther : request.key ≠ key ∨ request.isAboutLock = false
  · -- its questions touch no lock of the key
    exact Or.inl (Request.keeps_other h hOther e he)
  · rw [not_or, not_not, Bool.not_eq_false] at hOther
    obtain ⟨rfl, hAbout⟩ := hOther
    cases request with
    | status key =>
      exact Or.inl (status_keeps h (fun e he => hClock e he (hActor e he)) e he hBefore)
    | lock key duration reasonCode reason => exact lock_keepsOrProlongs h hs e he
    | unlock key => exact absurd (hActor e he) (hUnlock e he)
    | _ => simp [Request.isAboutLock] at hAbout

theorem lockedUntil_serial {row : Lock} (h : Request.Serial s es s') (hRow : s.lock? key = some row)
    (hLocked : row.locked = true) (hUnlock : ∀ e ∈ es, e.actor ≠ .unlock key)
    (hClock : ∀ e ∈ es, e.actor = .status key → ∀ now, e.reading? = some now →
      now ≤ row.unlockTime) :
    (∀ e ∈ es, e.before.LockedUntil key row.unlockTime ∧ e.KeepsOrProlongs key) ∧
      s'.LockedUntil key row.unlockTime :=
  h.keeps (P := fun e => e.actor ≠ .unlock key ∧
      (e.actor = .status key → ∀ now, e.reading? = some now → now ≤ row.unlockTime))
    (fun e he => ⟨hUnlock e he, hClock e he⟩)
    (fun hTrace hP =>
      action_keepsOrProlongs hTrace (fun e he => (hP e he).1) fun e he => (hP e he).2)
    (fun _ hBefore hKeeps => hKeeps.lockedUntil hBefore) ⟨row, hRow, hLocked, Int64.le_refl _⟩

/-- No lock ends later than one without end. -/
theorem endless_serial {row : Lock} (h : Request.Serial s es s') (hRow : s.lock? key = some row)
    (hLocked : row.locked = true) (hUnlock : ∀ e ∈ es, e.actor ≠ .unlock key)
    (hEndless : row.unlockTime = .last) :
    (∀ e ∈ es, e.before.lock? key = some row ∧ e.after.lock? key = some row) ∧
      s'.lock? key = some row := by
  have hUntil {x : Store} (hx : x.lock? key = some row) : x.LockedUntil key .last :=
    ⟨row, hx, hLocked, hEndless ▸ Int64.le_refl _⟩
  obtain ⟨hEvents, hEnd⟩ := h.keeps (I := fun x => x.lock? key = some row)
    (Q := fun e => e.after.lock? key = some row) hUnlock
    (fun hTrace hOwn hs e he hBefore => by
      have hEvent := action_keepsOrProlongs hTrace hOwn (fun _ _ _ now _ => Millis.le_last now)
        (hUntil hs) e he (hUntil hBefore)
      rcases hEvent with hKeeps | ⟨-, -, -, unlockTime, old, -, -, hOld, hLt, -⟩
      · exact hKeeps.trans hBefore
      · -- there is no later moment to prolong it to
        cases hBefore.symm.trans hOld
        exact absurd (hEndless ▸ hLt) (Int64.not_lt.mpr (Millis.le_last unlockTime)))
    (fun _ _ hAfter => hAfter) hRow
  exact ⟨hEvents, hEnd⟩

/-- **A lock in force stays in force.** From a store with an active lock of a key, requests of all
kinds and on all keys are carried out one after another, each up to some point, while the clock
shows any time and every call may fail with or without effect. As long as the key is not unlocked and
no request for its status reads a time past the unlock time:

* at every point the key has an active lock that lasts at least as long;
* that lock changes only as a whole, when a request to lock the key writes one that ends later.

A lock without end needs no condition on the clock, and never changes. -/
theorem lock_in_force {row : Lock} (h : Request.Serial s es s') (hRow : s.lock? key = some row)
    (hLocked : row.locked = true) (hUnlock : ∀ e ∈ es, e.actor ≠ .unlock key) :
    ((∀ e ∈ es, e.actor = .status key → ∀ now, e.reading? = some now → now ≤ row.unlockTime) →
      (∀ e ∈ es, e.before.LockedUntil key row.unlockTime ∧ e.KeepsOrProlongs key ∧
        e.after.LockedUntil key row.unlockTime) ∧
      s'.LockedUntil key row.unlockTime) ∧
    (row.unlockTime = .last →
      (∀ e ∈ es, e.before.lock? key = some row ∧ e.after.lock? key = some row) ∧
      s'.lock? key = some row) := by
  refine ⟨fun hClock => ?_, endless_serial h hRow hLocked hUnlock⟩
  obtain ⟨hEvents, hEnd⟩ := lockedUntil_serial h hRow hLocked hUnlock hClock
  refine ⟨fun e he => ?_, hEnd⟩
  obtain ⟨hBefore, hKeeps⟩ := hEvents e he
  exact ⟨hBefore, hKeeps, hKeeps.lockedUntil hBefore⟩

/-! The status is read at the last moment of a lock; then a lock without end is written over it, and
the write fails although it has taken effect. -/

def threeSeconds : Store := .holding ⟨"alice", 1, "sms-otp"⟩ (.lockedUntil 3000 none none)

def endless : Store :=
  (threeSeconds.perform (.updateLock ⟨"alice", 1, "sms-otp"⟩ (.lockedUntil .last none none))).2

def statusEvents : List (Event Request Effect.Reply Store) :=
  [⟨.status ⟨"alice", 1, "sms-otp"⟩, .record (.getLock ⟨"alice", 1, "sms-otp"⟩),
      .ok (some (.lockedUntil 3000 none none)), threeSeconds, threeSeconds⟩,
    ⟨.status ⟨"alice", 1, "sms-otp"⟩, .readClock, (3000 : Millis), threeSeconds, threeSeconds⟩]

def lockEvents : List (Event Request Effect.Reply Store) :=
  [⟨.lock ⟨"alice", 1, "sms-otp"⟩ (-1) none none, .record (.getLock ⟨"alice", 1, "sms-otp"⟩),
      .ok (some (.lockedUntil 3000 none none)), threeSeconds, threeSeconds⟩,
    ⟨.lock ⟨"alice", 1, "sms-otp"⟩ (-1) none none,
      .record (.updateLock ⟨"alice", 1, "sms-otp"⟩ (.lockedUntil .last none none)),
      .error .disabled, threeSeconds, endless⟩]

theorem serial_prolonged : Request.Serial threeSeconds (statusEvents ++ lockEvents) endless := by
  have hStatus : Trace Effect.Answers (· = ·) (Request.status ⟨"alice", 1, "sms-otp"⟩)
      ((Request.status ⟨"alice", 1, "sms-otp"⟩).action true).run threeSeconds statusEvents
      (.done (.ok (.lockedUntil 3000 none none))) threeSeconds :=
    .turn rfl (.returns (.getLock ⟨"alice", 1, "sms-otp"⟩) threeSeconds) <|
      .turn rfl (.clock 3000 threeSeconds) (.stop rfl)
  have hLock : Trace Effect.Answers (· = ·) (Request.lock ⟨"alice", 1, "sms-otp"⟩ (-1) none none)
      ((Request.lock ⟨"alice", 1, "sms-otp"⟩ (-1) none none).action true).run threeSeconds
      lockEvents (.done (.error .disabled)) endless :=
    .turn rfl (.returns (.getLock ⟨"alice", 1, "sms-otp"⟩) threeSeconds) <|
      .turn rfl (.fails _ (RecordCall.partly_perform _ threeSeconds)) (.stop rfl)
  have hNone := Request.Serial.next hLock (.done endless)
  rw [List.append_nil] at hNone
  exact .next hStatus hNone

theorem lock_in_force_prolonged :
    endless.lock? ⟨"alice", 1, "sms-otp"⟩ = some (.lockedUntil .last none none) ∧
      (∀ e ∈ statusEvents ++ lockEvents, e.before.LockedUntil ⟨"alice", 1, "sms-otp"⟩ 3000 ∧
        e.KeepsOrProlongs ⟨"alice", 1, "sms-otp"⟩ ∧
        e.after.LockedUntil ⟨"alice", 1, "sms-otp"⟩ 3000) ∧
      endless.LockedUntil ⟨"alice", 1, "sms-otp"⟩ 3000 := by
  have hUnlock : ∀ e ∈ statusEvents ++ lockEvents, e.actor ≠ .unlock ⟨"alice", 1, "sms-otp"⟩ := by
    simp [statusEvents, lockEvents]
  have hClock : ∀ e ∈ statusEvents ++ lockEvents, e.actor = .status ⟨"alice", 1, "sms-otp"⟩ →
      ∀ now, e.reading? = some now → now ≤ 3000 := by
    simp [statusEvents, lockEvents, Event.reading?]
  have hRow : threeSeconds.lock? ⟨"alice", 1, "sms-otp"⟩ = some (.lockedUntil 3000 none none) := rfl
  have hEnd : endless.lock? ⟨"alice", 1, "sms-otp"⟩ = some (.lockedUntil .last none none) := rfl
  exact ⟨hEnd, (lock_in_force serial_prolonged hRow rfl hUnlock).1 hClock⟩

end Latch
