import Latch.Proofs.Lock.LockCall
import Latch.Proofs.Lock.LockInForce

/-!
# Requests to lock that race

Any number of requests to lock one key take turns. Each reads the row and then writes over what it
has read, and in between the others may have written. So a longer lock can give way to a shorter one,
but the harm has bounds: nothing is ever stored but what somebody asked for, no lock ends before one
that was stored while nobody was about to write, and a missing row is made by one request only.

* `lockCalls` — the requests, each under its own name;
* `Program.IsAboutToWrite` — a request is between its read and its write;
* `HeldUntil` — what is stored, and what is about to be written over it, lasts to a moment;
* `CreatedOnce` — a missing row has been made by exactly one request, or by none so far.

Main results:

* `HeldUntil.turn`, `CreatedOnce.turn` — what one turn keeps;
* `racing_of_run` — everything that is known of a run;
* `racing_locks_bounded` — the bounds on the harm.
-/

namespace Latch

variable {ι : Type} {key : Key} {moment : Millis} {call : LockCall}
  {own : List (Event ι Effect.Reply Store)} {q : Effect}
  {p : Program Effect.Reply (Except Error LockOutcome)} {s s' : Store}

/-- Requests to lock a key, each under its own name. -/
def lockCalls (key : Key) (calls : ι → LockCall) :
    (i : ι) → Program Effect.Reply (Except Error LockOutcome) :=
  fun i => ((calls i).action key).run

/-- What is asked next is a write. -/
def Program.IsAboutToWrite {α : Type} (p : Program Effect.Reply α) : Prop :=
  ∃ (call : RecordCall) (next : call.Reply → Program Effect.Reply α),
    p = .ask (.record call) next ∧ call.method.isWrite = true

/-! ## What is stored -/

/-- A turn leaves the row alone or stores the lock that the request has built. -/
theorem LockTurn.row_cases (h : LockTurn key call own q s p s') :
    s'.lock? key = s.lock? key ∨
      ∃ lock, call.built? own = some lock ∧ s'.lock? key = some lock := by
  cases h with
  | settle => exact Or.inl rfl
  | read => exact Or.inl rfl
  | refuse => exact Or.inl rfl
  | insert hBuilt _ hRows =>
    rw [hRows, Function.update_self]
    exact Or.inr ⟨_, hBuilt, rfl⟩
  | update hBuilt _ hRows =>
    rw [hRows, Function.update_self]
    cases hRow : s.lock? key with
    | none => exact Or.inl rfl
    | some old => exact Or.inr ⟨_, hBuilt, rfl⟩

/-! ## How long it lasts -/

section Turns

variable [DecidableEq ι] {ps : ι → Program Effect.Reply (Except Error LockOutcome)} {i : ι}
  {next : q.Reply → Program Effect.Reply (Except Error LockOutcome)}

/-- The row of a key is active and lasts to a moment, and so does whatever is about to be written over
it. -/
structure HeldUntil (key : Key) (moment : Millis)
    (ps : ι → Program Effect.Reply (Except Error LockOutcome)) (s : Store) : Prop where
  row : s.LockedUntil key moment
  pending : ∀ i lock next, ps i = .ask (.record (.updateLock key lock)) next →
    lock.locked = true ∧ moment ≤ lock.unlockTime

omit [DecidableEq ι] in
/-- While nobody is about to write, the row alone matters. -/
theorem HeldUntil.of_idle {row : Lock} (hRow : s.lock? key = some row) (hLocked : row.locked = true)
    (hIdle : ∀ i, ¬ (ps i).IsAboutToWrite) : HeldUntil key row.unlockTime ps s := by
  refine ⟨⟨row, hRow, hLocked, Int64.le_refl _⟩, ?_⟩
  intro i lock next hAsk
  exact absurd ⟨_, next, hAsk, rfl⟩ (hIdle i)

theorem HeldUntil.update (h : HeldUntil key moment ps s) (hRow : s'.LockedUntil key moment)
    (hp : ∀ lock next, p = .ask (.record (.updateLock key lock)) next →
      lock.locked = true ∧ moment ≤ lock.unlockTime) :
    HeldUntil key moment (Function.update ps i p) s' := by
  refine ⟨hRow, ?_⟩
  exact (Function.forall_update_iff ps fun _ p => ∀ lock next,
    p = .ask (.record (.updateLock key lock)) next →
      lock.locked = true ∧ moment ≤ lock.unlockTime).mpr ⟨hp, fun j _ => h.pending j⟩

/-- A request that reads an active row writes over it only with a lock that ends later. -/
theorem HeldUntil.turn (h : HeldUntil key moment ps s) (hAsk : ps i = .ask q next)
    (hTurn : LockTurn key call own q s p s') :
    HeldUntil key moment (Function.update ps i p) s' := by
  obtain ⟨row, hRow, hLocked, hLe⟩ := h.row
  cases hTurn with
  | settle => exact h.update h.row nofun
  | @read lock _ hBuilt =>
    refine h.update h.row ?_
    intro written after hWrite
    rw [hRow] at hWrite
    -- of what can follow the read, one write is left, and it prolongs the row
    rcases Manager.merge_cases key lock (some row) with ⟨hNone, -⟩ | ⟨old, hOld, hOpen, -⟩ |
      ⟨old, hOld, -, hLt, hMerge⟩ | ⟨old, hOld, -, -, hMerge⟩
    · cases hNone
    · cases hOld
      rw [hLocked] at hOpen
      cases hOpen
    · cases hOld
      rw [hMerge, run_record_bind] at hWrite
      cases hWrite
      exact ⟨LockCall.locked_of_built? hBuilt, Int64.le_trans hLe (Int64.le_of_lt hLt)⟩
    · rw [hMerge] at hWrite
      cases hWrite
  | insert _ hNew _ =>
    rw [hRow] at hNew
    cases hNew
  | refuse => exact h.update h.row nofun
  | @update lock _ _ _ _ _ hRows =>
    -- the write was decided by a read of a row that lasted to the moment
    obtain ⟨hActive, hLasts⟩ := h.pending i lock next hAsk
    refine h.update ⟨lock, ?_, hActive, hLasts⟩ nofun
    rw [hRows, Function.update_self, hRow, Option.map_some]

/-! ## Who has made it -/

/-- A key that had no row has none so far, and then no request is done or about to overwrite one; or
it has a row, and exactly one request has made it. -/
def CreatedOnce (key : Key) (ps : ι → Program Effect.Reply (Except Error LockOutcome))
    (s : Store) : Prop :=
  (s.lock? key = none ∧ ∀ i, ∃ q next, ps i = .ask q next ∧
    ∀ lock, q ≠ .record (.updateLock key lock)) ∨
  (s.lock? key ≠ none ∧ ∃! i, ps i = .done (.ok .created))

theorem CreatedOnce.of_absent (hNone : s.lock? key = none)
    (hOpen : ∀ i, ∃ q next, ps i = .ask q next ∧ ∀ lock, q ≠ .record (.updateLock key lock))
    (hp : ∃ q next, p = .ask q next ∧ ∀ lock, q ≠ .record (.updateLock key lock)) :
    CreatedOnce key (Function.update ps i p) s := by
  refine Or.inl ⟨hNone, ?_⟩
  exact (Function.forall_update_iff ps fun _ p => ∃ q next, p = .ask q next ∧
    ∀ lock, q ≠ .record (.updateLock key lock)).mpr ⟨hp, fun j _ => hOpen j⟩

/-- A turn that makes no row leaves it to the same request to have made it. -/
theorem CreatedOnce.of_present (hRow : s'.lock? key ≠ none)
    (hOnce : ∃! j, ps j = .done (.ok .created)) (hAsk : ps i = .ask q next)
    (hp : p ≠ .done (.ok .created)) : CreatedOnce key (Function.update ps i p) s' := by
  have hSame : ∀ j, Function.update ps i p j = .done (.ok .created) ↔
      ps j = .done (.ok .created) := by
    intro j
    by_cases hj : j = i
    · subst hj
      rw [Function.update_self, hAsk]
      exact iff_of_false hp nofun
    · rw [Function.update_of_ne hj]
  exact Or.inr ⟨hRow, (existsUnique_congr hSame).mpr hOnce⟩

theorem CreatedOnce.turn (h : CreatedOnce key ps s) (hAsk : ps i = .ask q next)
    (hTurn : LockTurn key call own q s p s') : CreatedOnce key (Function.update ps i p) s' := by
  rcases h with ⟨hNone, hOpen⟩ | ⟨hRow, hOnce⟩
  · cases hTurn with
    | settle => exact .of_absent hNone hOpen ⟨_, _, run_record_bind _ _, nofun⟩
    | read =>
      rw [hNone]
      exact .of_absent hNone hOpen ⟨_, _, run_record_bind _ _, nofun⟩
    | insert _ _ hRows =>
      -- all the others are still at work, so this request is the only one
      refine Or.inr ⟨by rw [hRows, Function.update_self]; nofun, i, Function.update_self .., ?_⟩
      intro j hj
      by_contra hNe
      obtain ⟨q', next', hOther, -⟩ := hOpen j
      rw [Function.update_of_ne hNe, hOther] at hj
      cases hj
    | refuse hRow => exact absurd hNone hRow
    | update =>
      obtain ⟨q', next', hOther, hNoUpdate⟩ := hOpen i
      cases hAsk.symm.trans hOther
      exact absurd rfl (hNoUpdate _)
  · cases hTurn with
    | settle => exact .of_present hRow hOnce hAsk nofun
    | @read lock =>
      refine .of_present hRow hOnce hAsk ?_
      intro hDone
      -- whoever reads a row does not make it
      rcases Manager.merge_cases key lock (s.lock? key) with ⟨hNone, -⟩ | ⟨-, -, -, hMerge⟩ |
        ⟨-, -, -, -, hMerge⟩ | ⟨-, -, -, -, hMerge⟩
      · exact hRow hNone
      all_goals
        rw [hMerge] at hDone
        cases hDone
    | insert _ hNew _ => exact absurd hNew hRow
    | refuse => exact .of_present hRow hOnce hAsk nofun
    | update _ hOutcome hRows =>
      refine .of_present ?_ hOnce hAsk ?_
      · rw [hRows, Function.update_self]
        simpa using hRow
      · intro hDone
        cases hDone
        exact hOutcome rfl

end Turns

/-! ## Runs -/

section Runs

variable [DecidableEq ι] {calls : ι → LockCall} {s₀ : Store}
  {es late : List (Event ι Effect.Reply Store)}
  {ps ps' : ι → Program Effect.Reply (Except Error LockOutcome)}

/-- Everything that is known of a run of requests to lock a key. -/
structure Racing (key : Key) (calls : ι → LockCall) (s₀ : Store)
    (es : List (Event ι Effect.Reply Store))
    (ps : ι → Program Effect.Reply (Except Error LockOutcome)) (s : Store) : Prop where
  ready : s.Ready
  stage : ∀ i, LockStage key (calls i) i (es.filter (·.actor = i)) (ps i)
  verbatim : s.lock? key = s₀.lock? key ∨ ∃ i lock,
    (calls i).built? (es.filter (·.actor = i)) = some lock ∧ s.lock? key = some lock
  created : s₀.lock? key = none → CreatedOnce key ps s

theorem Racing.start (hReady : s.Ready) : Racing key calls s [] (lockCalls key calls) s where
  ready := hReady
  stage i := .start key (calls i) i
  verbatim := Or.inl rfl
  created hNone := Or.inl ⟨hNone, fun i => by
    by_cases hDuration : (calls i).duration < 0
    · exact ⟨_, _, congrArg ExceptT.run (Manager.lock_of_neg hDuration), nofun⟩
    · exact ⟨_, _, congrArg ExceptT.run (Manager.lock_of_not_neg hDuration), nofun⟩⟩

theorem Racing.turn {i : ι} {next : q.Reply → Program Effect.Reply (Except Error LockOutcome)}
    {r : q.Reply} (h : Racing key calls s₀ es ps s) (hAsk : ps i = .ask q next)
    (hAnswer : Effect.Reliable q s r s') :
    Racing key calls s₀ (es ++ [⟨i, q, r, s, s'⟩]) (Function.update ps i (next r)) s' := by
  obtain ⟨hReady, hStage, hTurn⟩ := (h.stage i).turn hAsk h.ready hAnswer
  rw [← filter_actor_self es ⟨i, q, r, s, s'⟩] at hStage hTurn
  refine ⟨hReady, ?_, ?_, fun hNone => (h.created hNone).turn hAsk hTurn⟩
  · intro j
    by_cases hj : j = i
    · subst hj
      rw [Function.update_self]
      exact hStage
    · -- the others wait where they are
      rw [Function.update_of_ne hj, filter_actor_of_ne hj]
      exact h.stage j
  · rcases hTurn.row_cases with hSame | ⟨lock, hBuilt, hRow⟩
    · -- what was stored before is stored still, and what was built before is built still
      rw [hSame]
      refine h.verbatim.imp_right ?_
      rintro ⟨j, lock, hBuilt, hRow⟩
      refine ⟨j, lock, ?_, hRow⟩
      rw [List.filter_append]
      exact LockCall.built?_append hBuilt _
    · exact Or.inr ⟨i, lock, hBuilt, hRow⟩

theorem racing_of_run (hReady : s.Ready)
    (h : Interleaving Effect.Reliable (lockCalls key calls) s es ps' s') :
    Racing key calls s es ps' s' :=
  h.invariant (Racing.start hReady) fun hRacing hAsk hAnswer => hRacing.turn hAsk hAnswer

/-- What lasts to a moment while nobody is about to write lasts to it for good. -/
theorem heldUntil_of_run (hRacing : Racing key calls s₀ es ps s) (hHeld : HeldUntil key moment ps s)
    (h : Interleaving Effect.Reliable ps s late ps' s') : HeldUntil key moment ps' s' := by
  -- the requests go on from the stages that they have reached
  have hRun := h.invariant
    (I := fun late ps s => Racing key calls s₀ (es ++ late) ps s ∧ HeldUntil key moment ps s)
    (by rw [List.append_nil]; exact ⟨hRacing, hHeld⟩) ?_
  · exact hRun.2
  · rintro late ps s i q next r s' ⟨hRacing, hHeld⟩ hAsk hAnswer
    obtain ⟨-, -, hTurn⟩ := (hRacing.stage i).turn hAsk hRacing.ready hAnswer
    rw [← List.append_assoc]
    exact ⟨hRacing.turn hAsk hAnswer, hHeld.turn hAsk hTurn⟩

theorem readAbsent_filter {i : ι} :
    ReadAbsent key i (es.filter (·.actor = i)) ↔ ReadAbsent key i es := by
  simp [ReadAbsent]

/-- A request fails exactly if it has read that there is no row and another one has made it; then it
has changed nothing. -/
theorem Racing.failed_iff {i : ι} (h : Racing key calls s₀ es ps s) :
    (∃ error, ps i = .done (.error error)) ↔
      (∃ result, ps i = .done result) ∧ ps i ≠ .done (.ok .created) ∧ ReadAbsent key i es := by
  have hStage := h.stage i
  constructor
  · rintro ⟨error, hDone⟩
    rw [hDone] at hStage ⊢
    refine ⟨⟨_, rfl⟩, nofun, ?_⟩
    rcases hStage.done_cases with hCreated | ⟨lock, -, hAbsent, -, -⟩ | ⟨-, outcome, -, hKept⟩
    · cases hCreated
    · exact readAbsent_filter.mp hAbsent
    · cases hKept
  · rintro ⟨⟨result, hDone⟩, hOther, hAbsent⟩
    rw [hDone] at hStage hOther ⊢
    rcases hStage.done_cases with rfl | ⟨lock, -, -, -, rfl⟩ | ⟨hPresent, -⟩
    · exact absurd rfl hOther
    · exact ⟨_, rfl⟩
    · exact absurd (readAbsent_filter.mpr hAbsent) hPresent

theorem Racing.failed {i : ι} {error : Error} (h : Racing key calls s₀ es ps s)
    (hDone : ps i = .done (.error error)) :
    (∃ lock, (calls i).built? (es.filter (·.actor = i)) = some lock ∧
      error = .record (.insertLock key lock) .uniqueViolation) ∧
    ∀ e ∈ es, e.actor = i → e.after = e.before := by
  have hStage := h.stage i
  rw [hDone] at hStage
  rcases hStage.done_cases with hCreated | ⟨lock, hBuilt, -, hQuiet, hError⟩ | ⟨-, outcome, -, hKept⟩
  · cases hCreated
  · cases hError
    refine ⟨⟨lock, hBuilt, rfl⟩, fun e he hActor => ?_⟩
    exact hQuiet e (List.mem_filter.mpr ⟨he, by simpa using hActor⟩)
  · cases hKept

/-- Once a request is done, a row that was missing has been made by exactly one of them. -/
theorem Racing.exists_created {i : ι} {result : Except Error LockOutcome}
    (h : Racing key calls s₀ es ps s) (hNone : s₀.lock? key = none) (hDone : ps i = .done result) :
    ∃! j, ps j = .done (.ok .created) := by
  rcases h.created hNone with ⟨-, hOpen⟩ | ⟨-, hOnce⟩
  · obtain ⟨q, next, hAsk, -⟩ := hOpen i
    rw [hDone] at hAsk
    cases hAsk
  · exact hOnce

/-- **Racing requests to lock do bounded harm.** Any number of requests to lock one key take turns in
any order and at any times, nobody else writes, and the store does not fail on its own. The run may
stop anywhere, so what is said of its end holds at every moment.

* What is stored is the first row, or exactly the lock that one of the requests has built.
* If an active row is stored at a moment at which nobody is between its read and its write, then the
  row stays active from then on and never ends before that one.
* If there was no row at first and a request is done, then exactly one request has created the row.
  Exactly the others that have read that there was none fail when they are done; their error is that
  the row is there already, and they have changed nothing. -/
theorem racing_locks_bounded (hReady : s.Ready)
    (h : Interleaving Effect.Reliable (lockCalls key calls) s es ps' s') :
    (s'.lock? key = s.lock? key ∨ ∃ i lock,
      (calls i).built? (es.filter (·.actor = i)) = some lock ∧ s'.lock? key = some lock) ∧
    (∀ early late ps₁ s₁ row, es = early ++ late →
      Interleaving Effect.Reliable (lockCalls key calls) s early ps₁ s₁ →
      Interleaving Effect.Reliable ps₁ s₁ late ps' s' →
      s₁.lock? key = some row → row.locked = true → (∀ i, ¬ (ps₁ i).IsAboutToWrite) →
      s'.LockedUntil key row.unlockTime) ∧
    (s.lock? key = none → (∃ i result, ps' i = .done result) →
      (∃! i, ps' i = .done (.ok .created)) ∧
      ∀ i, ((∃ error, ps' i = .done (.error error)) ↔
          (∃ result, ps' i = .done result) ∧ ps' i ≠ .done (.ok .created) ∧ ReadAbsent key i es) ∧
        ∀ error, ps' i = .done (.error error) →
          (∃ lock, (calls i).built? (es.filter (·.actor = i)) = some lock ∧
            error = .record (.insertLock key lock) .uniqueViolation) ∧
          ∀ e ∈ es, e.actor = i → e.after = e.before) := by
  have hRacing := racing_of_run hReady h
  refine ⟨hRacing.verbatim, ?_, ?_⟩
  · intro early late ps₁ s₁ row _ hEarly hLate hRow hLocked hIdle
    have hHeld := HeldUntil.of_idle hRow hLocked hIdle
    exact (heldUntil_of_run (racing_of_run hReady hEarly) hHeld hLate).row
  · rintro hNone ⟨i, result, hDone⟩
    refine ⟨hRacing.exists_created hNone hDone, fun i => ⟨hRacing.failed_iff, ?_⟩⟩
    intro error hError
    exact hRacing.failed hError

end Runs

/-! Two requests find no row. The first creates it and the second is refused; then a third one comes
and prolongs the lock. -/

def racers : Fin 3 → LockCall
  | 0 => ⟨5000, some "A", none⟩
  | 1 => ⟨-1, some "B", none⟩
  | 2 => ⟨7000, some "C", none⟩

def race : Played (fun _ : Fin 3 => Except Error LockOutcome) Effect.Reply Store :=
  play Effect.answer [(0, 1000), (0, 0), (1, 0), (0, 0), (1, 0)]
    (lockCalls ⟨"alice", 1, "sms-otp"⟩ racers) .migrated

def raceOn : Played (fun _ : Fin 3 => Except Error LockOutcome) Effect.Reply Store :=
  play Effect.answer [(2, 1000), (2, 0), (2, 0)] race.programs race.state

theorem racing_locks_bounded_refused :
    race.programs 1 = .done (.error (.record (.insertLock ⟨"alice", 1, "sms-otp"⟩
        (.lockedUntil .last (some "B") none)) .uniqueViolation)) ∧
      (∃! i, race.programs i = .done (.ok .created)) ∧
      ReadAbsent ⟨"alice", 1, "sms-otp"⟩ 1 race.events ∧
      (∀ e ∈ race.events, e.actor = 1 → e.after = e.before) ∧
      raceOn.state.lock? ⟨"alice", 1, "sms-otp"⟩ = some (.lockedUntil 8000 (some "C") none) ∧
      raceOn.state.LockedUntil ⟨"alice", 1, "sms-otp"⟩ 6000 := by
  have hReady : Store.migrated.Ready := ⟨rfl, rfl, fun _ => rfl⟩
  have hRace : Interleaving Effect.Reliable (lockCalls ⟨"alice", 1, "sms-otp"⟩ racers) .migrated
      race.events race.programs race.state := interleaving_play Effect.reliable_answer _ _ _
  have hOn : Interleaving Effect.Reliable race.programs race.state raceOn.events raceOn.programs
      raceOn.state := interleaving_play Effect.reliable_answer _ _ _
  have hCreated : race.programs 0 = .done (.ok .created) := by rfl
  have hRefused : race.programs 1 = .done (.error (.record (.insertLock ⟨"alice", 1, "sms-otp"⟩
      (.lockedUntil .last (some "B") none)) .uniqueViolation)) := by rfl
  have hWaiting : race.programs 2 = .ask .readClock fun now => (Manager.lockUntil
      ⟨"alice", 1, "sms-otp"⟩ (.lockedUntil (now.later 7000) (some "C") none)).run := by rfl
  -- the first two requests are done, and the third has not read yet
  have hIdle : ∀ i, ¬ (race.programs i).IsAboutToWrite := by
    rintro i ⟨call, next, hAsk, -⟩
    match i with
    | 0 => cases hCreated.symm.trans hAsk
    | 1 => cases hRefused.symm.trans hAsk
    | 2 => cases hWaiting.symm.trans hAsk
  obtain ⟨-, -, hMade⟩ := racing_locks_bounded hReady hRace
  obtain ⟨hOnce, hFailed⟩ := hMade rfl ⟨0, _, hCreated⟩
  obtain ⟨hIff, hRefusal⟩ := hFailed 1
  obtain ⟨-, hHeld, -⟩ := racing_locks_bounded hReady (hRace.append hOn)
  exact ⟨hRefused, hOnce, (hIff.mp ⟨_, hRefused⟩).2.2, (hRefusal _ hRefused).2, by rfl,
    hHeld _ _ _ _ (.lockedUntil 6000 (some "A") none) rfl hRace hOn (by rfl) rfl hIdle⟩

end Latch
