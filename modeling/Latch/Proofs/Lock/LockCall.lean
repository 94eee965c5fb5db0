import Latch.Proofs.Lock.Expiry
import Latch.Proofs.Manager.Actions
import Latch.Proofs.Store.Ready

/-!
# A request to lock, turn by turn

A request to lock asks at most three things: the time, the row of its key, and a write that depends on
that row. Between its questions anything can happen to the store. What the request itself knows and
can do is said here once, for stores that do not fail on their own.

* `LockCall` — a request to lock a key; `LockCall.built?` — the lock that it has built so far;
* `LockStage` — how far a request has come, and what its own events tell;
* `LockTurn` — everything that one turn of a request can do.

Main results:

* `LockCall.toInt_lockAt` — the unlock time that is asked for, as an integer;
* `LockStage.start`, `LockStage.turn` — a request begins at a stage, and a turn leads to the next one.
-/

namespace Latch

/-- A request to lock a key. -/
structure LockCall where
  duration : Millis
  reasonCode : Option String
  reason : Option String
deriving DecidableEq

namespace LockCall

variable {ι σ : Type} {call : LockCall} {own : List (Event ι Effect.Reply σ)} {lock : Lock}

def action (key : Key) (call : LockCall) : Action LockOutcome :=
  Manager.lock true key call.duration call.reasonCode call.reason

/-- The lock that is asked for at a moment. -/
def lockAt (call : LockCall) (now : Millis) : Lock :=
  .lockedUntil (Lock.target now call.duration) call.reasonCode call.reason

theorem lockAt_of_neg (h : call.duration < 0) (now : Millis) :
    call.lockAt now = .lockedUntil .last call.reasonCode call.reason := by
  rw [lockAt, Lock.target, if_pos h]

theorem lockAt_of_not_neg (h : ¬ call.duration < 0) (now : Millis) :
    call.lockAt now = .lockedUntil (now.later call.duration) call.reasonCode call.reason := by
  rw [lockAt, Lock.target, if_neg h]

/-- The unlock time that is asked for: the last moment for a negative duration, and otherwise the
exact sum, cut off at the last moment. -/
theorem toInt_lockAt (call : LockCall) (now : Millis) :
    (call.lockAt now).unlockTime.toInt =
      if call.duration < 0 then Millis.last.toInt
      else min (now.toInt + call.duration.toInt) Millis.last.toInt := by
  by_cases hDuration : call.duration < 0
  · rw [lockAt_of_neg hDuration, if_pos hDuration]
    rfl
  · rw [lockAt_of_not_neg hDuration, if_neg hDuration]
    exact Millis.toInt_later hDuration

/-! ## The lock that a request has built -/

/-- The lock that a request has built after some events of its own: it needs to have read the clock,
unless the lock is to have no end. -/
def built? (call : LockCall) (own : List (Event ι Effect.Reply σ)) : Option Lock :=
  if call.duration < 0 then some (.lockedUntil .last call.reasonCode call.reason)
  else (readings own).head?.map call.lockAt

theorem built?_append (h : call.built? own = some lock) (more : List (Event ι Effect.Reply σ)) :
    call.built? (own ++ more) = some lock := by
  unfold built? at h ⊢
  by_cases hDuration : call.duration < 0
  · rwa [if_pos hDuration] at h ⊢
  · rw [if_neg hDuration] at h ⊢
    -- the first reading stays the first
    cases hReadings : readings own with
    | nil => simp [hReadings] at h
    | cons now rest =>
      rw [hReadings] at h
      have hMore : readings (own ++ more) = now :: (rest ++ readings more) := by
        rw [readings, List.filterMap_append, ← readings, hReadings, List.cons_append]
        rfl
      rw [hMore]
      exact h

theorem locked_of_built? (h : call.built? own = some lock) : lock.locked = true := by
  unfold built? at h
  split at h
  · cases h
    rfl
  · obtain ⟨now, -, rfl⟩ := Option.map_eq_some_iff.mp h
    rfl

end LockCall

/-! ## Stages -/

/-- A write that ends a request to lock. -/
def Manager.write (call : RecordCall) (outcome : LockOutcome) : Action LockOutcome := do
  let _ ← record call
  return outcome

/-- A request to lock has read that its key has no row. -/
def ReadAbsent {ι : Type} (key : Key) (actor : ι) (es : List (Event ι Effect.Reply Store)) : Prop :=
  ∃ before after : Store, ⟨actor, .record (.getLock key), .ok (none : Option Lock), before, after⟩ ∈ es

/-- No event has changed the store. -/
def Quiet {ι : Type} (es : List (Event ι Effect.Reply Store)) : Prop := ∀ e ∈ es, e.after = e.before

/-- How a request fails whose row was inserted by another one. -/
def refusal (key : Key) (lock : Lock) : Error := .record (.insertLock key lock) .uniqueViolation

/-- How far a request to lock a key has come, and what its own events tell. -/
inductive LockStage {ι : Type} (key : Key) (call : LockCall) (actor : ι) :
    List (Event ι Effect.Reply Store) → Program Effect.Reply (Except Error LockOutcome) → Prop
  | waiting (hEnds : ¬ call.duration < 0) : LockStage key call actor [] (call.action key).run
  | settled {own : List (Event ι Effect.Reply Store)} {lock : Lock}
      (hBuilt : call.built? own = some lock) (hUnread : ¬ ReadAbsent key actor own)
      (hQuiet : Quiet own) : LockStage key call actor own (Manager.lockUntil key lock).run
  | inserting {own : List (Event ι Effect.Reply Store)} {lock : Lock}
      (hBuilt : call.built? own = some lock) (hAbsent : ReadAbsent key actor own)
      (hQuiet : Quiet own) :
      LockStage key call actor own (Manager.write (.insertLock key lock) .created).run
  | updating {own : List (Event ι Effect.Reply Store)} {lock : Lock} {outcome : LockOutcome}
      (hBuilt : call.built? own = some lock) (hPresent : ¬ ReadAbsent key actor own)
      (hOutcome : outcome ≠ .created) :
      LockStage key call actor own (Manager.write (.updateLock key lock) outcome).run
  | created {own : List (Event ι Effect.Reply Store)} :
      LockStage key call actor own (.done (.ok .created))
  | refused {own : List (Event ι Effect.Reply Store)} {lock : Lock}
      (hBuilt : call.built? own = some lock) (hAbsent : ReadAbsent key actor own)
      (hQuiet : Quiet own) : LockStage key call actor own (.done (.error (refusal key lock)))
  | kept {own : List (Event ι Effect.Reply Store)} {outcome : LockOutcome}
      (hPresent : ¬ ReadAbsent key actor own) (hOutcome : outcome ≠ .created) :
      LockStage key call actor own (.done (.ok outcome))

/-- Everything that one turn of a request to lock can do: what it asks, the store before, what is left
of the request, and the store after. The events are its own, with this turn at the end. -/
inductive LockTurn {ι : Type} (key : Key) (call : LockCall)
    (own : List (Event ι Effect.Reply Store)) :
    Effect → Store → Program Effect.Reply (Except Error LockOutcome) → Store → Prop
  | settle {lock : Lock} (s : Store) :
      LockTurn key call own .readClock s (Manager.lockUntil key lock).run s
  | read {lock : Lock} (s : Store) (hBuilt : call.built? own = some lock) :
      LockTurn key call own (.record (.getLock key)) s
        (Manager.merge key lock (s.lock? key)).run s
  | insert {lock : Lock} {s s' : Store} (hBuilt : call.built? own = some lock)
      (hNew : s.lock? key = none) (hRows : s'.lock? = Function.update s.lock? key (some lock)) :
      LockTurn key call own (.record (.insertLock key lock)) s (.done (.ok .created)) s'
  | refuse {lock : Lock} {s : Store} (hRow : s.lock? key ≠ none) :
      LockTurn key call own (.record (.insertLock key lock)) s
        (.done (.error (refusal key lock))) s
  | update {lock : Lock} {outcome : LockOutcome} {s s' : Store}
      (hBuilt : call.built? own = some lock) (hOutcome : outcome ≠ .created)
      (hRows : s'.lock? = Function.update s.lock? key ((s.lock? key).map fun _ => lock)) :
      LockTurn key call own (.record (.updateLock key lock)) s (.done (.ok outcome)) s'

section Stages

variable {ι : Type} {key : Key} {call : LockCall} {actor : ι}
  {own : List (Event ι Effect.Reply Store)} {e : Event ι Effect.Reply Store} {lock : Lock}

theorem ReadAbsent.append (h : ReadAbsent key actor own) (more : List (Event ι Effect.Reply Store)) :
    ReadAbsent key actor (own ++ more) := by
  obtain ⟨before, after, hMem⟩ := h
  exact ⟨before, after, List.mem_append_left _ hMem⟩

/-- An event that is no such read adds none. -/
theorem not_readAbsent_append (h : ¬ ReadAbsent key actor own)
    (hOther : ∀ before after : Store,
      e ≠ ⟨actor, .record (.getLock key), .ok (none : Option Lock), before, after⟩) :
    ¬ ReadAbsent key actor (own ++ [e]) := by
  rintro ⟨before, after, hMem⟩
  rcases List.mem_append.mp hMem with hOwn | hLast
  · exact h ⟨before, after, hOwn⟩
  · exact hOther before after (List.mem_singleton.mp hLast).symm

theorem Quiet.append (h : Quiet own) (hSame : e.after = e.before) : Quiet (own ++ [e]) := by
  intro x hx
  rcases List.mem_append.mp hx with hOwn | hLast
  · exact h x hOwn
  · rw [List.mem_singleton.mp hLast, hSame]

/-- A request begins by waiting for the clock, or knows from the start what it asks for. -/
theorem LockStage.start (key : Key) (call : LockCall) (actor : ι) :
    LockStage key call actor [] (call.action key).run := by
  by_cases hDuration : call.duration < 0
  · have hBuilt : call.built? ([] : List (Event ι Effect.Reply Store)) =
        some (.lockedUntil .last call.reasonCode call.reason) := if_pos hDuration
    rw [LockCall.action, Manager.lock_of_neg hDuration]
    refine .settled hBuilt ?_ ?_
    · rintro ⟨before, after, hMem⟩
      cases hMem
    · intro e he
      cases he
  · exact .waiting hDuration

/-- The row that was read decides what comes next. -/
theorem LockStage.of_read {s : Store} (hBuilt : call.built? own = some lock)
    (hUnread : ¬ ReadAbsent key actor own) (hQuiet : Quiet own) :
    LockStage key call actor
      (own ++ [⟨actor, .record (.getLock key), .ok (s.lock? key), s, s⟩])
      (Manager.merge key lock (s.lock? key)).run := by
  have hBuilt' := LockCall.built?_append hBuilt
    [⟨actor, .record (.getLock key), .ok (s.lock? key), s, s⟩]
  have hPresent {old : Lock} (hRow : s.lock? key = some old) : ¬ ReadAbsent key actor
      (own ++ [⟨actor, .record (.getLock key), .ok (s.lock? key), s, s⟩]) := by
    refine not_readAbsent_append hUnread ?_
    intro before after hSame
    rw [hRow] at hSame
    cases hSame
  rcases Manager.merge_cases key lock (s.lock? key) with ⟨hRow, hMerge⟩ |
    ⟨old, hRow, -, hMerge⟩ | ⟨old, hRow, -, -, hMerge⟩ | ⟨old, hRow, -, -, hMerge⟩ <;>
    rw [hMerge]
  · refine .inserting hBuilt' ?_ (hQuiet.append rfl)
    rw [hRow]
    exact ⟨s, s, List.mem_append_right _ (List.mem_singleton_self _)⟩
  · exact .updating hBuilt' (hPresent hRow) nofun
  · exact .updating hBuilt' (hPresent hRow) nofun
  · exact .kept (hPresent hRow) nofun

/-- How a request that is done has ended. -/
theorem LockStage.done_cases {result : Except Error LockOutcome}
    (h : LockStage key call actor own (.done result)) :
    result = .ok .created ∨
      (∃ lock, call.built? own = some lock ∧ ReadAbsent key actor own ∧ Quiet own ∧
        result = .error (refusal key lock)) ∨
      (¬ ReadAbsent key actor own ∧ ∃ outcome, outcome ≠ .created ∧ result = .ok outcome) := by
  generalize hp : (Program.done result : Program Effect.Reply (Except Error LockOutcome)) = p at h
  cases h with
  | waiting hEnds =>
    rw [LockCall.action, Manager.lock_of_not_neg hEnds] at hp
    cases hp
  | settled => cases hp
  | inserting => cases hp
  | updating => cases hp
  | created =>
    cases hp
    exact Or.inl rfl
  | refused hBuilt hAbsent hQuiet =>
    cases hp
    exact Or.inr (Or.inl ⟨_, hBuilt, hAbsent, hQuiet, rfl⟩)
  | kept hPresent hOutcome =>
    cases hp
    exact Or.inr (Or.inr ⟨hPresent, _, hOutcome, rfl⟩)

/-! ## Turns -/

/-- What a request asks in a write that ends it. -/
theorem run_write (record : RecordCall) (outcome : LockOutcome) :
    (Manager.write record outcome).run = .ask (.record record) fun
      | .ok _ => .done (.ok outcome)
      | .error e => .done (.error e) :=
  run_record_bind record _

/-- An inserted row is there afterwards, or one was there before and the request is refused. -/
theorem Store.Ready.perform_insertLock_cases {s s' : Store} {r : (RecordCall.insertLock key lock).Reply}
    (h : s.Ready) (hPerform : s.perform (.insertLock key lock) = (r, s')) :
    s'.Ready ∧ ((s.lock? key = none ∧ r = .ok () ∧
        s'.lock? = Function.update s.lock? key (some lock)) ∨
      (s.lock? key ≠ none ∧ r = .error (refusal key lock) ∧ s' = s)) := by
  by_cases hNew : s.lock? key = none
  · obtain ⟨s₁, hOk, hReady, hRows⟩ := h.perform_insertLock lock hNew
    cases hPerform.symm.trans hOk
    exact ⟨hReady, Or.inl ⟨hNew, rfl, hRows⟩⟩
  · cases hPerform.symm.trans (h.perform_insertLock_duplicate lock hNew)
    exact ⟨h, Or.inr ⟨hNew, rfl, rfl⟩⟩

/-- **A turn of a request leads to its next stage**, and what it does is one of `LockTurn`. -/
theorem LockStage.turn {p : Program Effect.Reply (Except Error LockOutcome)} {q : Effect}
    {next : q.Reply → Program Effect.Reply (Except Error LockOutcome)} {r : q.Reply} {s s' : Store}
    (h : LockStage key call actor own p) (hAsk : p = .ask q next) (hReady : s.Ready)
    (hAnswer : Effect.Reliable q s r s') :
    s'.Ready ∧ LockStage key call actor (own ++ [⟨actor, q, r, s, s'⟩]) (next r) ∧
      LockTurn key call (own ++ [⟨actor, q, r, s, s'⟩]) q s (next r) s' := by
  cases h with
  | waiting hEnds =>
    rw [LockCall.action, Manager.lock_of_not_neg hEnds, run_now_bind] at hAsk
    cases hAsk
    obtain rfl : s' = s := hAnswer.clock_eq
    simp only [← LockCall.lockAt_of_not_neg hEnds]
    refine ⟨hReady, .settled ?_ ?_ ?_, .settle s'⟩
    · rw [LockCall.built?, if_neg hEnds]
      rfl
    · rintro ⟨before, after, hMem⟩
      cases List.mem_singleton.mp hMem
    · intro e he
      rw [List.mem_singleton.mp he]
  | settled hBuilt hUnread hQuiet =>
    rw [Manager.lockUntil, run_record_bind] at hAsk
    cases hAsk
    cases hAnswer.perform_eq.symm.trans (hReady.perform_getLock key)
    exact ⟨hReady, .of_read hBuilt hUnread hQuiet, .read s (LockCall.built?_append hBuilt _)⟩
  | inserting hBuilt hAbsent hQuiet =>
    rw [run_write] at hAsk
    cases hAsk
    obtain ⟨hReady', ⟨hNew, rfl, hRows⟩ | ⟨hRow, rfl, rfl⟩⟩ :=
      hReady.perform_insertLock_cases hAnswer.perform_eq
    · exact ⟨hReady', .created, .insert (LockCall.built?_append hBuilt _) hNew hRows⟩
    · exact ⟨hReady', .refused (LockCall.built?_append hBuilt _) (hAbsent.append _)
        (hQuiet.append rfl), .refuse hRow⟩
  | @updating _ lock outcome hBuilt hPresent hOutcome =>
    rw [run_write] at hAsk
    cases hAsk
    obtain ⟨s₁, hOk, hReady', hRows⟩ := hReady.perform_updateLock_map key lock
    cases hAnswer.perform_eq.symm.trans hOk
    have hPresent' := not_readAbsent_append
      (e := ⟨actor, .record (.updateLock key lock), .ok (), s, s'⟩) hPresent nofun
    exact ⟨hReady', .kept hPresent' hOutcome,
      .update (LockCall.built?_append hBuilt _) hOutcome hRows⟩
  | created => cases hAsk
  | refused => cases hAsk
  | kept => cases hAsk

end Stages

end Latch
