import Latch.Proofs.Manager.Actions
import Latch.Proofs.Store.Ready

/-!
# Lazy expiry

Rows that have expired are removed only when somebody asks for their status. Callers cannot tell:
the manager answers like a machine that removes nothing and takes an expired row for none.

* `LockRequest`, `Step` — the requests about locks, each at the moment that the clock shows;
* `Store.serve` — the manager answers a request;
* `LockRows.serve` — the machine that removes no row answers it;
* `serveAll` — a run of requests, one after another.

Main results:

* `Store.Ready.run_status`, `Store.Ready.run_lockUntil`, `Store.Ready.run_unlock` — what each request
  does;
* `serve_agrees` — one request keeps the manager and the machine in agreement;
* `lazy_expiry_transparent` — a whole run does, and requests for a status change no other answer.
-/

namespace Latch

/-! ## Requests one after another -/

inductive LockRequest where
  | status (key : Key)
  | lock (key : Key) (duration : Millis) (reasonCode reason : Option String)
  | unlock (key : Key)

/-- What callers see of an answer. -/
inductive LockAnswer where
  | status (lock : Lock)
  | wrote (yes : Bool)
  | unlocked
deriving DecidableEq

def LockRequest.isStatus : LockRequest → Bool
  | status _ => true
  | _ => false

/-- What the manager does for a request while the switch is on. -/
def LockRequest.action : LockRequest → Action LockAnswer
  | status key => .status <$> Manager.status true key
  | lock key duration reasonCode reason =>
    (.wrote ·.isWrite) <$> Manager.lock true key duration reasonCode reason
  | unlock key => (fun _ => .unlocked) <$> Manager.unlock true key

/-- A request and the moment at which it is made. -/
structure Step where
  now : Millis
  request : LockRequest

/-- Answers one step after another. -/
def serveAll {α σ : Type} (serve : Step → σ → α × σ) : List Step → σ → List α × σ
  | [], s => ([], s)
  | step :: rest, s =>
    let (answer, s) := serve step s
    let (answers, s) := serveAll serve rest s
    (answer :: answers, s)

/-- The manager answers a request. -/
def Store.serve (step : Step) (s : Store) : Except Error LockAnswer × Store :=
  step.request.action.run.run (Effect.answer step.now) s

/-! ## The machine that removes no row -/

abbrev LockRows : Type := Key → Option Lock

/-- Answers a request without ever removing an expired row; such a row counts for none. -/
def LockRows.serve : Step → LockRows → LockAnswer × LockRows
  | ⟨now, .status key⟩, rows => (.status (Lock.seen now (rows key)), rows)
  | ⟨now, .lock key duration reasonCode reason⟩, rows =>
    let requested := Lock.lockedUntil (Lock.target now duration) reasonCode reason
    let writes := requested.givesWay (Lock.inForce? now (rows key))
    (.wrote writes, if writes then Function.update rows key (some requested) else rows)
  | ⟨_, .unlock key⟩, rows => (.unlocked, Function.update rows key none)

/-! ## What each request does -/

section Requests

variable {s s' : Store} {key : Key} {now : Millis}

theorem run_map_ok {α β : Type} {x : Action α} {f : α → β} {a : α}
    (h : x.run.run (Effect.answer now) s = (.ok a, s')) :
    (f <$> x).run.run (Effect.answer now) s = (.ok (f a), s') := by
  show (x.run.bind _).run _ s = _
  rw [Program.run_bind, h]
  rfl

/-- A record call that succeeds hands its value on. -/
theorem run_record_ok {β : Type} {call : RecordCall} {f : call.Value → Action β} {value : call.Value}
    (h : s.perform call = (.ok value, s')) :
    (Manager.record call >>= f).run.run (Effect.answer now) s =
      (f value).run.run (Effect.answer now) s' := by
  rw [run_record_bind]
  simp only [Program.run, Effect.answer, h]

/-- The conditional removal of an expired row. -/
theorem Store.Ready.run_purge (h : s.Ready) {row : Lock} (hRow : s.lock? key = some row)
    (hExpired : row.isExpiredAt now = true) :
    ∃ s', (Manager.purge key now).run.run (Effect.answer now) s = (.ok .unlocked, s') ∧ s'.Ready ∧
      s'.lock? = Function.update s.lock? key none := by
  obtain ⟨s', hPerform, hReady, hRows⟩ := h.perform_deleteExpiredLock hRow hExpired
  exact ⟨s', run_record_ok hPerform, hReady, hRows⟩

/-- The status of a row that has not expired is the row, and nothing is written. -/
theorem Store.Ready.run_status_of_not_expired (h : s.Ready) {row : Lock}
    (hRow : s.lock? key = some row) (hExpired : row.isExpiredAt now = false) :
    (Manager.status true key).run.run (Effect.answer now) s = (.ok row, s) := by
  rw [Manager.status_eq, run_record_ok (h.perform_getLock key), hRow, Manager.statusOf,
    run_now_bind, Program.run]
  simp only [Effect.answer, hExpired]
  rfl

/-- A status is what the row stands for; an expired row is gone afterwards. -/
theorem Store.Ready.run_status (h : s.Ready) (key : Key) (now : Millis) :
    ∃ s', (Manager.status true key).run.run (Effect.answer now) s =
        (.ok (Lock.seen now (s.lock? key)), s') ∧
      s'.Ready ∧ s'.lock? = Function.update s.lock? key (Lock.inForce? now (s.lock? key)) := by
  cases hRow : s.lock? key with
  | none =>
    refine ⟨s, ?_, h, by rw [Lock.inForce?_none, ← hRow, Function.update_eq_self]⟩
    rw [Manager.status_eq, run_record_ok (h.perform_getLock key), hRow]
    rfl
  | some row =>
    cases hExpired : row.isExpiredAt now with
    | true =>
      -- nobody else writes, so the removal finds the row that was read
      obtain ⟨s', hRun, hReady, hRows⟩ := h.run_purge hRow hExpired
      rw [Lock.seen_of_expired hExpired, Lock.inForce?_of_expired hExpired]
      refine ⟨s', ?_, hReady, hRows⟩
      rw [Manager.status_eq, run_record_ok (h.perform_getLock key), hRow, Manager.statusOf,
        run_now_bind, Program.run]
      simpa [Effect.answer, hExpired] using hRun
    | false =>
      rw [Lock.seen_of_not_expired hExpired, Lock.inForce?_of_not_expired hExpired]
      exact ⟨s, h.run_status_of_not_expired hRow hExpired, h,
        by rw [← hRow, Function.update_eq_self]⟩

/-- A requested lock is written if the row gives way, and the outcome tells what the row was. -/
theorem Store.Ready.run_lockUntil (h : s.Ready) (key : Key) (requested : Lock) (now : Millis) :
    ∃ outcome s', (Manager.lockUntil key requested).run.run (Effect.answer now) s =
        (.ok outcome, s') ∧
      s'.Ready ∧ LockOutcome.Tells requested (s.lock? key) outcome ∧
      s'.lock? = if requested.givesWay (s.lock? key) then
        Function.update s.lock? key (some requested) else s.lock? := by
  rw [Manager.lockUntil, run_record_ok (h.perform_getLock key)]
  rcases Manager.merge_cases key requested (s.lock? key) with ⟨hRow, hMerge⟩ |
    ⟨old, hRow, hLocked, hMerge⟩ | ⟨old, hRow, hLocked, hLt, hMerge⟩ |
    ⟨old, hRow, hLocked, hLe, hMerge⟩ <;> rw [hMerge, hRow]
  · obtain ⟨s', hPerform, hReady, hRows⟩ := h.perform_insertLock requested hRow
    exact ⟨.created, s', run_record_ok hPerform, hReady, .created, hRows⟩
  · obtain ⟨s', hPerform, hReady, hRows⟩ := h.perform_updateLock requested hRow
    have hGives : requested.givesWay (some old) = true := by simp [Lock.givesWay, hLocked]
    exact ⟨.relocked, s', run_record_ok hPerform, hReady, .relocked hLocked,
      by rw [hGives]; exact hRows⟩
  · obtain ⟨s', hPerform, hReady, hRows⟩ := h.perform_updateLock requested hRow
    have hGives : requested.givesWay (some old) = true := by simp [Lock.givesWay, hLt]
    exact ⟨.extended, s', run_record_ok hPerform, hReady, .extended hLocked hLt,
      by rw [hGives]; exact hRows⟩
  · have hKeeps : requested.givesWay (some old) = false := by simp [Lock.givesWay, hLocked, hLe]
    exact ⟨.unchanged, s, rfl, h, .unchanged hLocked hLe, by rw [hKeeps]; rfl⟩

/-- The unlock time is settled before the row is read. -/
theorem run_lock_eq (key : Key) (duration : Millis) (reasonCode reason : Option String)
    (now : Millis) (s : Store) :
    (Manager.lock true key duration reasonCode reason).run.run (Effect.answer now) s =
      (Manager.lockUntil key (.lockedUntil (Lock.target now duration) reasonCode reason)).run.run
        (Effect.answer now) s := by
  by_cases hDuration : duration < 0
  · rw [Manager.lock_of_neg hDuration, Lock.target, if_pos hDuration]
  · rw [Manager.lock_of_not_neg hDuration, Lock.target, if_neg hDuration, run_now_bind]
    rfl

theorem Store.Ready.run_unlock (h : s.Ready) (key : Key) (now : Millis) :
    ∃ s', (Manager.unlock true key).run.run (Effect.answer now) s = (.ok (), s') ∧ s'.Ready ∧
      s'.lock? = Function.update s.lock? key none := by
  obtain ⟨s', hPerform, hReady, hRows⟩ := h.perform_deleteLock key
  refine ⟨s', ?_, hReady, hRows⟩
  show (Manager.record (.deleteLock key)).run.run (Effect.answer now) s = _
  exact hPerform

end Requests

/-! ## Agreement -/

/-- The same rows count at a moment. -/
def LockRows.Agree (now : Millis) (rows rows' : LockRows) : Prop :=
  ∀ key, Lock.inForce? now (rows key) = Lock.inForce? now (rows' key)

namespace LockRows.Agree

variable {now later : Millis} {rows rows' : LockRows}

theorem refl (now : Millis) (rows : LockRows) : Agree now rows rows := fun _ => rfl

/-- Rows that agree go on to agree. -/
theorem mono (h : Agree now rows rows') (hLe : now ≤ later) : Agree later rows rows' := by
  intro key
  rw [← Lock.inForce?_inForce? hLe, h key, Lock.inForce?_inForce? hLe]

theorem update (h : Agree now rows rows') (key : Key) (row : Option Lock) :
    Agree now (Function.update rows key row) (Function.update rows' key row) := by
  intro k
  by_cases hk : k = key
  · subst hk
    rw [Function.update_self, Function.update_self]
  · rw [Function.update_of_ne hk, Function.update_of_ne hk, h k]

/-- Nothing that counts is lost with a row that has expired. -/
theorem purge (h : Agree now rows rows') (key : Key) :
    Agree now (Function.update rows key (Lock.inForce? now (rows key))) rows' := by
  intro k
  by_cases hk : k = key
  · subst hk
    rw [Function.update_self, Lock.inForce?_inForce? (Int64.le_refl now), h k]
  · rw [Function.update_of_ne hk, h k]

end LockRows.Agree

/-- **One request keeps the manager and the machine in agreement**, and both give the same answer. -/
theorem serve_agrees {step : Step} {s : Store} {rows : LockRows} (hReady : s.Ready)
    (hAgree : LockRows.Agree step.now s.lock? rows) :
    ∃ s', s.serve step = (.ok (rows.serve step).1, s') ∧ s'.Ready ∧
      LockRows.Agree step.now s'.lock? (rows.serve step).2 := by
  obtain ⟨now, request⟩ := step
  cases request with
  | status key =>
    obtain ⟨s', hRun, hReady', hRows⟩ := hReady.run_status key now
    have hSeen : Lock.seen now (s.lock? key) = Lock.seen now (rows key) := by
      rw [Lock.seen, hAgree key, Lock.seen]
    -- the row is purged here and stays there
    rw [hSeen] at hRun
    refine ⟨s', run_map_ok hRun, hReady', ?_⟩
    rw [hRows]
    exact hAgree.purge key
  | lock key duration reasonCode reason =>
    obtain ⟨outcome, s', hRun, hReady', hTells, hRows⟩ :=
      hReady.run_lockUntil key (.lockedUntil (Lock.target now duration) reasonCode reason) now
    rw [← run_lock_eq] at hRun
    have hWrote := hTells.isWrite_eq
    have hLe : now ≤ (Lock.lockedUntil (Lock.target now duration) reasonCode reason).unlockTime :=
      Lock.le_target now duration
    -- the request does not look whether the row has expired; the machine does
    have hGives : (Lock.lockedUntil (Lock.target now duration) reasonCode reason).givesWay
        (Lock.inForce? now (rows key)) = outcome.isWrite := by
      rw [← hAgree key, Lock.givesWay_inForce? hLe, hWrote]
    rw [← hWrote] at hRows
    refine ⟨s', ?_, hReady', ?_⟩
    · simp only [LockRows.serve, hGives]
      exact run_map_ok hRun
    · simp only [hRows, LockRows.serve, hGives]
      cases outcome.isWrite with
      | true => exact hAgree.update key _
      | false => exact hAgree
  | unlock key =>
    obtain ⟨s', hRun, hReady', hRows⟩ := hReady.run_unlock key now
    refine ⟨s', run_map_ok hRun, hReady', ?_⟩
    rw [hRows]
    exact hAgree.update key none

/-! ## Runs -/

theorem serveAll_append {α σ : Type} (serve : Step → σ → α × σ) (steps rest : List Step) (s : σ) :
    (serveAll serve (steps ++ rest) s).2 = (serveAll serve rest (serveAll serve steps s).2).2 := by
  induction steps generalizing s with
  | nil => rfl
  | cons step steps ih => exact ih (serve step s).2

/-- A run keeps the agreement, since what has expired stays so while the clock does not go back. -/
theorem serveAll_agrees {steps : List Step} {s : Store} {rows : LockRows} (hReady : s.Ready)
    (hClock : (steps.map Step.now).Pairwise (· ≤ ·))
    (hAgree : ∀ step ∈ steps, LockRows.Agree step.now s.lock? rows) :
    (serveAll Store.serve steps s).1 = (serveAll LockRows.serve steps rows).1.map .ok ∧
      (serveAll Store.serve steps s).2.Ready := by
  induction steps generalizing s rows with
  | nil => exact ⟨rfl, hReady⟩
  | cons step steps ih =>
    rw [List.map_cons, List.pairwise_cons] at hClock
    obtain ⟨s', hServe, hReady', hAgree'⟩ :=
      serve_agrees hReady (hAgree step (List.mem_cons_self ..))
    -- what agrees now agrees at every later step
    obtain ⟨hAnswers, hEnd⟩ := ih hReady' hClock.2 fun x hx =>
      hAgree'.mono (hClock.1 x.now (List.mem_map_of_mem hx))
    simp only [serveAll, hServe]
    exact ⟨congrArg (_ :: ·) hAnswers, hEnd⟩

/-- The elements whose mark is set. -/
def kept {α : Type} (marked : List (α × Bool)) : List α := (marked.filter Prod.snd).map Prod.fst

theorem kept_map {α β : Type} (f : α → β) (answers : List α) (marks : List Bool) :
    kept ((answers.map f).zip marks) = (kept (answers.zip marks)).map f := by
  induction answers generalizing marks with
  | nil => rfl
  | cons answer answers ih =>
    cases marks with
    | nil => rfl
    | cons mark marks => cases mark <;> simpa [kept] using ih marks

/-- The machine forgets a request for a status at once. -/
theorem serveAll_kept {marked : List (Step × Bool)}
    (hStatus : ∀ x ∈ marked, x.2 = false → x.1.request.isStatus = true) (rows : LockRows) :
    (serveAll LockRows.serve (kept marked) rows).1 =
      kept ((serveAll LockRows.serve (marked.map Prod.fst) rows).1.zip (marked.map Prod.snd)) := by
  induction marked generalizing rows with
  | nil => rfl
  | cons x marked ih =>
    obtain ⟨hHead, hTail⟩ := List.forall_mem_cons.mp hStatus
    obtain ⟨step, mark⟩ := x
    cases mark with
    | true => exact congrArg (_ :: ·) (ih hTail (LockRows.serve step rows).2)
    | false =>
      -- only a request for a status can be left out
      obtain ⟨now, request⟩ := step
      cases request with
      | status key => exact ih hTail rows
      | lock => simp [LockRequest.isStatus] at hHead
      | unlock => simp [LockRequest.isStatus] at hHead

/-- **Lazy expiry is transparent.** Requests about locks are made one after another on a store that
does not fail, while the switch is on and the clock does not go back:

* the manager answers every request, and as the machine does that removes no row and takes an expired
  one for none;
* directly after a request for the status of a key, no expired row of that key is stored;
* requests for a status can be left out or put in: the others are answered as before. -/
theorem lazy_expiry_transparent {s : Store} {steps : List Step} (hReady : s.Ready)
    (hClock : (steps.map Step.now).Pairwise (· ≤ ·)) :
    (serveAll Store.serve steps s).1 = (serveAll LockRows.serve steps s.lock?).1.map .ok ∧
    (∀ before after now key, steps = before ++ ⟨now, .status key⟩ :: after →
      ∀ row, (serveAll Store.serve (before ++ [⟨now, .status key⟩]) s).2.lock? key = some row →
        now ≤ row.unlockTime) ∧
    ∀ marked : List (Step × Bool), marked.map Prod.fst = steps →
      (∀ x ∈ marked, x.2 = false → x.1.request.isStatus = true) →
      (serveAll Store.serve (kept marked) s).1 =
        kept ((serveAll Store.serve steps s).1.zip (marked.map Prod.snd)) := by
  -- both start from the same rows
  have hRun {steps : List Step} (hClock : (steps.map Step.now).Pairwise (· ≤ ·)) :=
    serveAll_agrees hReady hClock fun step _ => LockRows.Agree.refl step.now s.lock?
  refine ⟨(hRun hClock).1, ?_, ?_⟩
  · rintro before after now key rfl row hRow
    rw [List.map_append, List.pairwise_append] at hClock
    -- the run up to the request leaves a store that is ready for it
    obtain ⟨s', hStatus, -, hRows⟩ := (hRun hClock.1).2.run_status key now
    have hServe := run_map_ok (f := LockAnswer.status) hStatus
    rw [serveAll_append] at hRow
    have hStored : s'.lock? key = some row := by
      rw [← hRow]
      exact congrArg (fun served => served.2.lock? key) hServe.symm
    rw [hRows, Function.update_self] at hStored
    exact Lock.le_of_inForce? hStored
  · rintro marked rfl hStatus
    -- both runs answer like the machine, and the machine does not notice a status
    have hKept : ((kept marked).map Step.now).Pairwise (· ≤ ·) := by
      refine hClock.sublist (List.Sublist.map _ ?_)
      exact (List.filter_sublist ..).map _
    rw [(hRun hKept).1, (hRun hClock).1, kept_map, serveAll_kept hStatus]

/-- A lock is written over one that has expired, is read before and after it has expired itself, and
gives way to a lock without end. -/
def expiringSteps : List Step :=
  [⟨2000, .lock ⟨"alice", 1, "sms-otp"⟩ 5 (some "NEW") none⟩,
    ⟨2001, .status ⟨"alice", 1, "sms-otp"⟩⟩,
    ⟨2006, .status ⟨"alice", 1, "sms-otp"⟩⟩,
    ⟨2006, .lock ⟨"alice", 1, "sms-otp"⟩ (-1) none none⟩,
    ⟨.last, .status ⟨"alice", 1, "sms-otp"⟩⟩]

theorem lazy_expiry_transparent_unlocked :
    (serveAll Store.serve expiringSteps
        (.holding ⟨"alice", 1, "sms-otp"⟩ (.lockedUntil 1000 none none))).1 =
      [.ok (.wrote true), .ok (.status (.lockedUntil 2005 (some "NEW") none)),
        .ok (.status .unlocked), .ok (.wrote true),
        .ok (.status (.lockedUntil .last none none))] := by
  have hReady : (Store.holding ⟨"alice", 1, "sms-otp"⟩ (.lockedUntil 1000 none none)).Ready :=
    ⟨rfl, rfl, fun _ => rfl⟩
  have hClock : (expiringSteps.map Step.now).Pairwise (· ≤ ·) := by decide
  exact (lazy_expiry_transparent hReady hClock).1

end Latch
