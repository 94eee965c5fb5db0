import Latch.Proofs.Manager.Statements

/-!
# Calls that fail

Every record call of a request can fail, before or after it has taken effect, and whatever else uses the
store. A request that meets a failure ends there and returns the error as it is.

* `Effect.Disturbed` — how surroundings answer in which calls fail;
* `Event.failure?` — the error of a record call that failed;
* `Surfaces` — a program that ends with the first error of a call, and with no other;
* `Surfaced` — how far a trace of such a program has come;
* `Sparing` — a request that writes once at most, and at its end if it fails.

Main results:

* `RecordCall.ends_script` — the errors of a call are errors of the record store;
* `Request.surfaces_action` — every request ends with the first error of its calls;
* `Trace.surfaced` — how such a trace ends;
* `Request.sparing_action` — requests about locks are sparing;
* `failures_surface` — all this for every request, on every store, whatever fails.
-/

namespace Latch

open Program (Trace Asks Ends)
open RecordCall (Attempt)

/-! ## Errors of the record store -/

/-- If there is an error, then the record store has failed. -/
def FailsAsStore {α : Type} (result : Except Error α) : Prop :=
  ∀ error, result = .error error → ∃ failed cause, error = .record failed cause

namespace RecordCall

theorem failsAsStore_ok {α : Type} (a : α) : FailsAsStore (.ok a : Except Error α) := nofun

theorem failsAsStore_error {α : Type} (failed : Failed) (cause : Cause) :
    FailsAsStore (.error (.record failed cause) : Except Error α) := by
  intro error hError
  cases hError
  exact ⟨failed, cause, rfl⟩

theorem ends_statement_bind {α : Type} {failed : Failed} {st : Store.Statement}
    {f : st.Result → Attempt α} (hf : ∀ result, (f result).run.Ends FailsAsStore) :
    (statement failed st >>= f).run.Ends FailsAsStore := by
  rw [run_statement_bind]
  intro reply
  cases reply with
  | ok result => exact hf result
  | error fault => exact failsAsStore_error failed fault.cause

theorem ends_statement {failed : Failed} {st : Store.Statement} :
    (statement failed st).run.Ends FailsAsStore := by
  intro reply
  cases reply with
  | ok result => exact failsAsStore_ok result
  | error fault => exact failsAsStore_error failed fault.cause

theorem ends_addAll (key : Key) (entries : List (String × String)) :
    (addAll key entries).run.Ends FailsAsStore := by
  induction entries with
  | nil => exact failsAsStore_ok ()
  | cons entry rest ih => exact ends_statement_bind fun _ => ih

theorem ends_updateAll (key : Key) (entries : List (String × String)) :
    (updateAll key entries).run.Ends FailsAsStore := by
  induction entries with
  | nil => exact failsAsStore_ok ()
  | cons entry rest ih => exact ends_statement_bind fun _ => ih

theorem ends_deleteAll (key : Key) (names : List String) :
    (deleteAll key names).run.Ends FailsAsStore := by
  induction names with
  | nil => exact failsAsStore_ok ()
  | cons name rest ih => exact ends_statement_bind fun _ => ih

/-- Whatever happens between the statements of a call, its errors are errors of the record store. -/
theorem ends_script (call : RecordCall) : call.script.run.Ends FailsAsStore := by
  cases call with
  | getProperties key =>
    -- the rows are put together after the statement, which cannot fail
    rw [script, map_eq_pure_bind]
    exact ends_statement_bind fun rows => failsAsStore_ok _
  | addProperties key properties => exact ends_addAll key _
  | updateProperties key properties => exact ends_updateAll key _
  | deleteProperties key names => exact ends_deleteAll key names
  | _ => exact ends_statement

end RecordCall

/-! ## Surroundings in which calls fail -/

namespace Effect

/-- How disturbed surroundings can answer. A call that fails may have taken effect, in part or in full.
During a call about properties, which may be many statements, others may use the store as well. -/
inductive Disturbed : Answering Effect.Reply Store
  | clock (now : Millis) (s : Store) : Disturbed .readClock s now s
  | returns (call : RecordCall) (s : Store) :
      Disturbed (.record call) s (s.perform call).1 (s.perform call).2
  | fails {call : RecordCall} {s s' : Store} (failed : Failed) (cause : Cause)
      (hPartly : call.Partly s s') : Disturbed (.record call) s (.error (.record failed cause)) s'
  | interleaved {call : RecordCall} {s s' : Store} {reply : call.Reply}
      {es : List (Event Unit Store.Statement.Reply Store)} (hAbout : call.isAboutLock = false)
      (hTrace : Trace Store.Statement.Answers (fun _ _ => True) () call.script.run s es
        (.done reply) s') : Disturbed (.record call) s reply s'

theorem Disturbed.failsAsStore {call : RecordCall} {s s' : Store} {reply : call.Reply}
    (h : Disturbed (.record call) s reply s') : FailsAsStore reply := by
  cases h with
  | returns =>
    obtain ⟨es, hTrace⟩ := RecordCall.trace_run call.script.run s
    exact hTrace.ends (RecordCall.ends_script call)
  | fails failed cause => exact RecordCall.failsAsStore_error failed cause
  | interleaved _ hTrace => exact hTrace.ends (RecordCall.ends_script call)

/-- A call about a lock is one statement, during which nobody else can use the store. -/
theorem Disturbed.answers {q : Effect} {s s' : Store} {reply : q.Reply} (h : Disturbed q s reply s')
    (hLock : ∀ call, q = .record call → call.isAboutLock = true) : Answers q s reply s' := by
  cases h with
  | clock now => exact .clock now s
  | returns call => exact .returns call s
  | fails failed cause hPartly => exact .fails _ hPartly
  | interleaved hAbout =>
    rw [hLock _ rfl] at hAbout
    cases hAbout

/-- Whether a question is a call that can write. -/
def isWrite : Effect → Bool
  | readClock => false
  | record call => call.method.isWrite

end Effect

namespace Event

variable {ι σ : Type}

/-- The error of a record call that failed. -/
def failure? : Event ι Effect.Reply σ → Option Error
  | ⟨_, .readClock, _, _, _⟩ => none
  | ⟨_, .record _, reply, _, _⟩ =>
    match reply with
    | .ok _ => none
    | .error error => some error

theorem failsAsStore {e : Event ι Effect.Reply Store} {error : Error}
    (hAnswer : Effect.Disturbed e.question e.before e.reply e.after)
    (hFailure : e.failure? = some error) : ∃ failed cause, error = .record failed cause := by
  obtain ⟨actor, question, reply, before, after⟩ := e
  cases question with
  | readClock => cases hFailure
  | record call =>
    cases reply with
    | ok value => cases hFailure
    | error e =>
      cases hFailure
      exact hAnswer.failsAsStore error rfl

end Event

/-! ## Requests that end with the first error -/

/-- A program ends with the first error of a record call, and with no other error. -/
inductive Surfaces {α : Type} : Program Effect.Reply (Except Error α) → Prop
  | ok (a : α) : Surfaces (.done (.ok a))
  | readClock {next : Millis → Program Effect.Reply (Except Error α)}
      (hNext : ∀ now, Surfaces (next now)) : Surfaces (.ask .readClock next)
  | record {call : RecordCall} {next : call.Reply → Program Effect.Reply (Except Error α)}
      (hOk : ∀ value, Surfaces (next (.ok value)))
      (hError : ∀ e, next (.error e) = .done (.error e)) : Surfaces (.ask (.record call) next)

namespace Surfaces

variable {α β : Type}

theorem now_bind {f : Millis → Action β} (hf : ∀ now, Surfaces (f now).run) :
    Surfaces (Manager.now >>= f).run :=
  .readClock hf

theorem record_bind {call : RecordCall} {f : call.Value → Action β}
    (hf : ∀ value, Surfaces (f value).run) : Surfaces (Manager.record call >>= f).run := by
  rw [run_record_bind]
  exact .record hf fun _ => rfl

theorem single (call : RecordCall) : Surfaces (Manager.record call).run :=
  .record (fun value => .ok value) fun _ => rfl

end Surfaces

namespace Manager

theorem surfaces_statusAfterPurge (key : Key) (now : Millis) :
    Surfaces (statusAfterPurge key now).run := by
  refine Surfaces.record_bind fun row => ?_
  cases row with
  | none => exact .ok _
  | some lock =>
    dsimp only
    split <;> exact .ok _

theorem surfaces_status (key : Key) : Surfaces (status true key).run := by
  rw [status_eq]
  refine Surfaces.record_bind fun row => ?_
  cases row with
  | none => exact .ok _
  | some lock =>
    refine Surfaces.now_bind fun now => ?_
    split
    · -- the lock has run out; if somebody else was faster, then the row is read once more
      refine Surfaces.record_bind fun removed => ?_
      cases removed with
      | true => exact .ok _
      | false => exact surfaces_statusAfterPurge key now
    · exact .ok _

theorem surfaces_lockUntil (key : Key) (requested : Lock) :
    Surfaces (lockUntil key requested).run := by
  refine Surfaces.record_bind fun row => ?_
  -- the row decides whether there is a call left, and which one
  rcases merge_cases key requested row with ⟨-, hMerge⟩ | ⟨-, -, -, hMerge⟩ | ⟨-, -, -, -, hMerge⟩ |
    ⟨-, -, -, -, hMerge⟩ <;> rw [hMerge]
  · exact Surfaces.record_bind fun _ => .ok _
  · exact Surfaces.record_bind fun _ => .ok _
  · exact Surfaces.record_bind fun _ => .ok _
  · exact .ok _

theorem surfaces_writeDiff (key : Key) (diff : PropertyDiff) : Surfaces (writeDiff key diff).run := by
  have hUpdate : Surfaces (if (!diff.toUpdate.isEmpty) = true then
      (record (.updateProperties key diff.toUpdate) >>= fun _ => pure diff)
      else pure diff : Action PropertyDiff).run := by
    split
    · exact Surfaces.record_bind fun _ => .ok diff
    · exact .ok diff
  unfold writeDiff
  dsimp only
  -- the updates come next, whether there are names to add or not
  split
  · exact Surfaces.record_bind fun _ => hUpdate
  · exact hUpdate

end Manager

/-- **Every request ends with the first error of its calls**, and with no other error. -/
theorem Request.surfaces_action (request : Request) : Surfaces (request.action true).run := by
  cases request with
  | status key => exact Manager.surfaces_status key
  | lock key duration reasonCode reason =>
    by_cases hDuration : duration < 0
    · rw [action, Manager.lock_of_neg hDuration]
      exact Manager.surfaces_lockUntil key _
    · rw [action, Manager.lock_of_not_neg hDuration]
      exact Surfaces.now_bind fun now => Manager.surfaces_lockUntil key _
  | setProperties key incoming =>
    show Surfaces (if incoming.isEmpty then pure default else
      Manager.record (.getProperties key) >>= fun existing =>
        Manager.writeDiff key (PropertyDiff.compute incoming existing) : Action PropertyDiff).run
    split
    · exact .ok _
    · exact Surfaces.record_bind fun existing => Manager.surfaces_writeDiff key _
  | _ => exact Surfaces.single _

/-- Without interruption, such a program can only fail as the record store does. -/
theorem Surfaces.failsAsStore {α : Type} {p : Program Effect.Reply (Except Error α)} (h : Surfaces p)
    (now : Millis) (s : Store) : FailsAsStore (p.run (Effect.answer now) s).1 := by
  induction h generalizing s with
  | ok a => exact RecordCall.failsAsStore_ok a
  | readClock _ ih => exact ih now s
  | @record call next _ hError ih =>
    have hCall : FailsAsStore (s.perform call).1 := (Effect.Disturbed.returns call s).failsAsStore
    show FailsAsStore ((next (s.perform call).1).run (Effect.answer now) (s.perform call).2).1
    cases hPerform : s.perform call with
    | mk reply s₁ =>
      rw [hPerform] at hCall
      cases reply with
      | ok value => exact ih value s₁
      | error e =>
        rw [hError e]
        obtain ⟨failed, cause, rfl⟩ := hCall e rfl
        exact RecordCall.failsAsStore_error failed cause

section Traces

variable {α ι : Type} {answers : Answering Effect.Reply Store} {drift : Store → Store → Prop}
  {actor : ι} {s s' : Store} {e : Event ι Effect.Reply Store}
  {es : List (Event ι Effect.Reply Store)} {p p' : Program Effect.Reply (Except Error α)}

/-- No call has failed yet, and the program surfaces errors from here on; or the last call has failed, and
its error is the result. -/
inductive Surfaced : List (Event ι Effect.Reply Store) → Program Effect.Reply (Except Error α) → Prop
  | never {es : List (Event ι Effect.Reply Store)} {p : Program Effect.Reply (Except Error α)}
      (hNever : ∀ e ∈ es, e.failure? = none) (hLeft : Surfaces p) : Surfaced es p
  | last {front : List (Event ι Effect.Reply Store)} {e : Event ι Effect.Reply Store} {error : Error}
      (hFront : ∀ x ∈ front, x.failure? = none) (hFailure : e.failure? = some error) :
      Surfaced (front ++ [e]) (.done (.error error))

/-- A question that did not fail may come before. -/
theorem Surfaced.cons (hNone : e.failure? = none) (h : Surfaced es p) : Surfaced (e :: es) p := by
  cases h with
  | never hNever hLeft => exact .never (List.forall_mem_cons.mpr ⟨hNone, hNever⟩) hLeft
  | @last front last error hFront hFailure =>
    have hLonger : ∀ x ∈ e :: front, x.failure? = none := List.forall_mem_cons.mpr ⟨hNone, hFront⟩
    exact .last hLonger hFailure

/-- **How a trace ends**: no call has failed yet, or the last one has, and its error is the result. -/
theorem Trace.surfaced (h : Trace answers drift actor p s es p' s') (hp : Surfaces p) :
    Surfaced es p' := by
  induction h with
  | stop => exact .never (by simp) hp
  | @turn q next s s₁ s₂ s' reply es p hDrift hAnswer hRest ih =>
    cases hp with
    | readClock hNext => exact (ih (hNext reply)).cons rfl
    | record hOk hError =>
      cases reply with
      | ok value => exact (ih (hOk value)).cons rfl
      | error e =>
        -- the program has ended with the error, so nothing can follow
        rw [hError] at hRest
        obtain ⟨rfl, rfl, -⟩ := hRest.done_inv
        have hNone : ∀ x ∈ ([] : List (Event ι Effect.Reply Store)), x.failure? = none := by simp
        exact .last hNone rfl

end Traces

/-! ## Requests about locks -/

/-- A request has written once at most, and if it has failed, then only its last call can have changed a
lock. -/
structure Sparing {ι α : Type} (es : List (Event ι Effect.Reply Store))
    (p : Program Effect.Reply (Except Error α)) : Prop where
  writes : (es.filter (·.question.isWrite)).length ≤ 1
  spared : ∀ error, p = .done (.error error) → ∀ e ∈ es.dropLast, e.after.lock? = e.before.lock?

/-- No call has written, or changed a lock. -/
def OnlyReads {ι : Type} (es : List (Event ι Effect.Reply Store)) : Prop :=
  ∀ e ∈ es, e.question.isWrite = false ∧ e.after.lock? = e.before.lock?

section Locks

variable {α ι : Type} {drift : Store → Store → Prop} {actor : ι} {s s' : Store} {key : Key}
  {e : Event ι Effect.Reply Store} {es : List (Event ι Effect.Reply Store)}
  {p : Program Effect.Reply (Except Error α)}

namespace Sparing

theorem nil (p : Program Effect.Reply (Except Error α)) :
    Sparing ([] : List (Event ι Effect.Reply Store)) p :=
  ⟨by simp, by simp⟩

theorem single (e : Event ι Effect.Reply Store) (p : Program Effect.Reply (Except Error α)) :
    Sparing [e] p := by
  refine ⟨?_, by simp⟩
  have hLength : ([e].filter (·.question.isWrite)).length ≤ [e].length := List.length_filter_le _ _
  exact hLength

theorem spared_cons (hSame : e.after.lock? = e.before.lock?)
    (hRest : ∀ x ∈ es.dropLast, x.after.lock? = x.before.lock?) :
    ∀ x ∈ (e :: es).dropLast, x.after.lock? = x.before.lock? := by
  cases es with
  | nil => simp
  | cons next rest =>
    rw [List.dropLast_cons_cons]
    exact List.forall_mem_cons.mpr ⟨hSame, hRest⟩

/-- A request that goes on after a question that is no write. -/
theorem cons (hRead : e.question.isWrite = false) (hSame : e.after.lock? = e.before.lock?)
    (h : Sparing es p) : Sparing (e :: es) p := by
  refine ⟨?_, fun error hError => spared_cons hSame (h.spared error hError)⟩
  rw [List.filter_cons_of_neg (by simp [hRead])]
  exact h.writes

/-- A request that goes on after a write that has changed nothing, and does not write again. -/
theorem cons_write (hSame : e.after.lock? = e.before.lock?) (hReads : OnlyReads es) :
    Sparing (e :: es) p := by
  have hNone : es.filter (·.question.isWrite) = [] :=
    List.filter_eq_nil_iff.mpr fun x hx => by simp [(hReads x hx).1]
  refine ⟨?_, fun error _ => spared_cons hSame fun x hx => (hReads x ((List.dropLast_sublist _).subset hx)).2⟩
  have hLength : ([e].filter (·.question.isWrite)).length ≤ [e].length := List.length_filter_le _ _
  have hSplit : (e :: es).filter (·.question.isWrite) = [e].filter (·.question.isWrite) := by
    rw [← List.singleton_append, List.filter_append, hNone, List.append_nil]
  rw [hSplit]
  exact hLength

end Sparing

namespace Manager

theorem onlyReads_statusAfterPurge {now : Millis} {p : Program Effect.Reply (Except Error Lock)}
    (h : Trace Effect.Answers drift actor (statusAfterPurge key now).run s es p s') :
    OnlyReads es := by
  -- the row is read, and nothing else is asked
  have hAsks : (statusAfterPurge key now).run.Asks (· = .record (.getLock key)) := by
    refine Asks.attempt_bind (asks_record rfl) fun row => ?_
    cases row with
    | none => trivial
    | some lock =>
      dsimp only
      split <;> trivial
  intro e he
  have hQuestion := h.asked hAsks e he
  have hAnswer := h.answered e he
  obtain ⟨actor, question, reply, before, after⟩ := e
  cases hQuestion
  have hRows := RecordCall.LockChange.of_getLock (Effect.Answers.lockChange hAnswer)
  exact ⟨rfl, hRows⟩

theorem sparing_purge {now : Millis} {p : Program Effect.Reply (Except Error Lock)}
    (h : Trace Effect.Answers drift actor (purge key now).run s es p s') : Sparing es p := by
  rcases Trace.record_cases h with ⟨rfl, -⟩ | ⟨s₁, s₂, removed, rest, rfl, -, hPerform, hRest⟩ |
    ⟨_, _, _, rfl, -⟩
  · exact .nil p
  · cases removed with
    | true =>
      -- the removal is the last question, so it may have changed something
      obtain ⟨rfl, -⟩ := hRest.done_inv
      exact .single _ p
    | false =>
      -- a removal that has found nothing to remove has changed nothing
      obtain ⟨hFound, hRows⟩ := Store.perform_deleteExpiredLock hPerform
      have hSame : s₂.lock? = s₁.lock? := by
        rw [hRows]
        cases hRow : s₁.lock? key with
        | none => rw [Option.filter_none, ← hRow, Function.update_eq_self]
        | some old =>
          have hActive : (!old.isExpiredAt now) = true := by
            rw [hRow, Option.any_some] at hFound
            rw [← hFound]
            rfl
          rw [Option.filter_some_pos (by exact hActive), ← hRow, Function.update_eq_self]
      exact .cons_write hSame (onlyReads_statusAfterPurge hRest)
  · exact .single _ p

theorem sparing_status {p : Program Effect.Reply (Except Error Lock)}
    (h : Trace Effect.Answers drift actor (status true key).run s es p s') : Sparing es p := by
  rw [status_eq] at h
  rcases Trace.record_cases h with ⟨rfl, -⟩ | ⟨s₁, s₂, row, rest, rfl, -, hPerform, hRest⟩ |
    ⟨_, _, _, rfl, -⟩
  · exact .nil p
  · -- the read comes before everything else and changes nothing
    have hSame : s₂ = s₁ := (Store.perform_getLock hPerform).2
    refine .cons rfl (congrArg Store.lock? hSame) ?_
    cases row with
    | none =>
      obtain ⟨rfl, -⟩ := hRest.done_inv
      exact .nil p
    | some lock =>
      rcases Trace.now_cases hRest with ⟨rfl, -⟩ | ⟨_, late, now, rfl, -, hLate⟩
      · exact .nil p
      · refine .cons rfl rfl ?_
        split at hLate
        · exact sparing_purge hLate
        · obtain ⟨rfl, -⟩ := hLate.done_inv
          exact .nil p
  · exact .single _ p

theorem sparing_lockUntil {requested : Lock} {p : Program Effect.Reply (Except Error LockOutcome)}
    (h : Trace Effect.Answers drift actor (lockUntil key requested).run s es p s') : Sparing es p := by
  -- the write that follows the read is the last question
  have hWrite : ∀ {call : RecordCall} {outcome : LockOutcome} {s : Store}
      {es : List (Event ι Effect.Reply Store)},
      Trace Effect.Answers drift actor (record call >>= fun _ => pure outcome).run s es p s' →
      Sparing es p := by
    intro call outcome s es hTrace
    rcases Trace.record_cases hTrace with ⟨rfl, -⟩ | ⟨_, _, _, _, rfl, -, -, hRest⟩ |
      ⟨_, _, _, rfl, -⟩
    · exact .nil p
    · obtain ⟨rfl, -⟩ := hRest.done_inv
      exact .single _ p
    · exact .single _ p
  rcases Trace.record_cases h with ⟨rfl, -⟩ | ⟨s₁, s₂, row, rest, rfl, -, hPerform, hRest⟩ |
    ⟨_, _, _, rfl, -⟩
  · exact .nil p
  · have hSame : s₂ = s₁ := (Store.perform_getLock hPerform).2
    refine .cons rfl (congrArg Store.lock? hSame) ?_
    rcases merge_cases key requested row with ⟨-, hMerge⟩ | ⟨-, -, -, hMerge⟩ |
      ⟨-, -, -, -, hMerge⟩ | ⟨-, -, -, -, hMerge⟩ <;> rw [hMerge] at hRest
    · exact hWrite hRest
    · exact hWrite hRest
    · exact hWrite hRest
    · obtain ⟨rfl, -⟩ := hRest.done_inv
      exact .nil p
  · exact .single _ p

theorem sparing_unlock {p : Program Effect.Reply (Except Error Unit)}
    (h : Trace Effect.Answers drift actor (unlock true key).run s es p s') : Sparing es p := by
  -- the removal is the only question; it is put as one that something follows
  have hUnlock : unlock true key = record (.deleteLock key) >>= pure := (bind_pure _).symm
  rw [hUnlock] at h
  rcases Trace.record_cases h with ⟨rfl, -⟩ | ⟨_, _, _, _, rfl, -, -, hRest⟩ | ⟨_, _, _, rfl, -⟩
  · exact .nil p
  · obtain ⟨rfl, -⟩ := hRest.done_inv
    exact .single _ p
  · exact .single _ p

end Manager

/-- **Requests about locks are sparing.** -/
theorem Request.sparing_action {request : Request} (hAbout : request.isAboutLock = true)
    {p : Program Effect.Reply (Except Error request.Answer)}
    (h : Trace Effect.Answers drift actor (request.action true).run s es p s') : Sparing es p := by
  cases request with
  | status key => exact Manager.sparing_status h
  | unlock key => exact Manager.sparing_unlock h
  | lock key duration reasonCode reason =>
    by_cases hDuration : duration < 0
    · rw [action, Manager.lock_of_neg hDuration] at h
      exact Manager.sparing_lockUntil h
    · rw [action, Manager.lock_of_not_neg hDuration] at h
      rcases Trace.now_cases h with ⟨rfl, -⟩ | ⟨_, rest, now, rfl, -, hRest⟩
      · exact .nil p
      · exact .cons rfl rfl (Manager.sparing_lockUntil hRest)
  | _ => cases hAbout

/-- During a request about a lock nobody can use the store in the middle of a call. -/
theorem Trace.answers_of_isAboutLock {request : Request} (hAbout : request.isAboutLock = true)
    {p : Program Effect.Reply (Except Error request.Answer)}
    (h : Trace Effect.Disturbed drift actor (request.action true).run s es p s') :
    Trace Effect.Answers drift actor (request.action true).run s es p s' := by
  refine h.of_answered fun e he => ?_
  refine (h.answered e he).answers fun call hCall => ?_
  have hAsks := h.asked (request.asks_action true) e he
  rw [hCall] at hAsks
  cases hAsks with
  | record _ hSame => exact hSame.trans hAbout

/-- A request changes the lock of its key, if it changes any. -/
theorem Trace.lock?_eq_of_row {request : Request} {enabled : Bool}
    {p : Program Effect.Reply (Except Error request.Answer)}
    (h : Trace Effect.Answers drift actor (request.action enabled).run s es p s') (he : e ∈ es)
    (hRow : e.after.lock? request.key = e.before.lock? request.key) :
    e.after.lock? = e.before.lock? := by
  have hAnswer := h.answered e he
  have hAsks := h.asked (request.asks_action enabled) e he
  obtain ⟨actor, question, reply, before, after⟩ := e
  cases hAsks with
  | readClock =>
    cases hAnswer
    rfl
  | record hKey _ =>
    -- the call is about the key of the request, so other rows are not in question
    funext k
    by_cases hk : k = request.key
    · rw [hk]
      exact hRow
    · exact hAnswer.lockChange.of_ne (hKey ▸ hk)

end Locks

/-- **Failures surface at once and unchanged.** A request is made while the switch is on. Any of its
record calls may fail, before or after it has taken effect, and others may use the store all the time.

* The request returns an error if and only if one of its calls has failed, and then the error of that
  call as it is. It is an error of the record store.
* The call that failed is the last one that was made, and the only one that failed.
* A request about a lock makes one writing call at most. If it fails in a call that has left the lock of
  its key alone, then none of its calls has changed a lock. -/
theorem failures_surface {ι : Type} {actor : ι} {request : Request} {s s' : Store}
    {es : List (Event ι Effect.Reply Store)} {p : Program Effect.Reply (Except Error request.Answer)}
    (h : Trace Effect.Disturbed (fun _ _ => True) actor (request.action true).run s es p s') :
    (∀ error, p = .done (.error error) ↔ ∃ e ∈ es, e.failure? = some error) ∧
    (∀ e ∈ es, ∀ error, e.failure? = some error →
      (∃ failed cause, error = .record failed cause) ∧
      ∃ front, es = front ++ [e] ∧ ∀ x ∈ front, x.failure? = none) ∧
    (request.isAboutLock = true →
      (es.filter (·.question.isWrite)).length ≤ 1 ∧
      ∀ e ∈ es, ∀ error, e.failure? = some error →
        e.after.lock? request.key = e.before.lock? request.key →
        ∀ x ∈ es, x.after.lock? = x.before.lock?) := by
  -- an event that failed is the last one, and its error is the result
  have hLast : ∀ e ∈ es, ∀ error, e.failure? = some error → p = .done (.error error) ∧
      ∃ front, es = front ++ [e] ∧ ∀ x ∈ front, x.failure? = none := by
    intro e he error hFailure
    cases Trace.surfaced h request.surfaces_action with
    | never hNever =>
      rw [hNever e he] at hFailure
      cases hFailure
    | @last front last found hFront hFound =>
      rcases List.mem_append.mp he with hMem | hMem
      · rw [hFront e hMem] at hFailure
        cases hFailure
      · cases List.mem_singleton.mp hMem
        cases hFound.symm.trans hFailure
        exact ⟨rfl, front, rfl, hFront⟩
  -- and there is such an event, if there is an error
  have hFailed : ∀ error, p = .done (.error error) → ∃ e ∈ es, e.failure? = some error := by
    intro error hEnd
    cases Trace.surfaced h request.surfaces_action with
    | never _ hLeft =>
      -- a program that surfaces errors does not end with one of its own
      rw [hEnd] at hLeft
      cases hLeft
    | @last front last found _ hFound =>
      cases hEnd
      exact ⟨last, by simp, hFound⟩
  refine ⟨?_, ?_, ?_⟩
  · intro error
    constructor
    · exact hFailed error
    · rintro ⟨e, he, hFailure⟩
      exact (hLast e he error hFailure).1
  · intro e he error hFailure
    exact ⟨Event.failsAsStore (h.answered e he) hFailure, (hLast e he error hFailure).2⟩
  · intro hAbout
    have hAnswers := Trace.answers_of_isAboutLock hAbout h
    have hSparing := Request.sparing_action hAbout hAnswers
    refine ⟨hSparing.writes, ?_⟩
    intro e he error hFailure hRow x hx
    obtain ⟨hEnd, front, rfl, -⟩ := hLast e he error hFailure
    rcases List.mem_append.mp hx with hMem | hMem
    · exact hSparing.spared error hEnd x (by rwa [List.dropLast_concat])
    · rw [List.mem_singleton.mp hMem]
      exact Trace.lock?_eq_of_row hAnswers he hRow

/-! A status is asked for while another request locks the key anew. The removal of the expired lock finds
nothing to remove, and the row cannot be read once more. -/

def expiredStore : Store := .holding ⟨"alice", 1, "sms-otp"⟩ (.lockedUntil 1000 none none)

def relockedStore : Store :=
  (expiredStore.perform (.updateLock ⟨"alice", 1, "sms-otp"⟩ (.lockedUntil 9000 none none))).2

def unreadable : Error := .record (.readLock ⟨"alice", 1, "sms-otp"⟩) .database

def rereadEvents : List (Event Unit Effect.Reply Store) :=
  [⟨(), .record (.getLock ⟨"alice", 1, "sms-otp"⟩), .ok (some (.lockedUntil 1000 none none)),
      expiredStore, expiredStore⟩,
    ⟨(), .readClock, (2000 : Millis), expiredStore, expiredStore⟩,
    ⟨(), .record (.deleteExpiredLock ⟨"alice", 1, "sms-otp"⟩ 2000), .ok false, relockedStore,
      relockedStore⟩,
    ⟨(), .record (.getLock ⟨"alice", 1, "sms-otp"⟩), .error unreadable, relockedStore, relockedStore⟩]

theorem trace_rereadEvents :
    Trace Effect.Disturbed (fun _ _ => True) ()
      ((Request.status ⟨"alice", 1, "sms-otp"⟩).action true).run expiredStore rereadEvents
      (.done (.error unreadable)) relockedStore := by
  have hUnread : (RecordCall.getLock ⟨"alice", 1, "sms-otp"⟩).Partly relockedStore relockedStore :=
    ⟨[], _, .stop rfl⟩
  refine .turn trivial (.returns _ expiredStore) (.turn trivial (.clock 2000 expiredStore) ?_)
  exact .turn trivial (.returns _ relockedStore) (.turn trivial (.fails _ _ hUnread) (.stop trivial))

theorem failures_surface_reread :
    (∃ e ∈ rereadEvents, e.failure? = some unreadable) ∧
      (∃ failed cause, unreadable = .record failed cause) ∧
      (rereadEvents.filter (·.question.isWrite)).length ≤ 1 ∧
      ∀ x ∈ rereadEvents, x.after.lock? = x.before.lock? := by
  obtain ⟨hSurfaces, hUnchanged, hLocks⟩ := failures_surface trace_rereadEvents
  obtain ⟨hWrites, hSpared⟩ := hLocks rfl
  obtain ⟨e, he, hFailure⟩ := (hSurfaces unreadable).mp rfl
  -- the call that failed is the last one, which has read
  obtain ⟨hStore, front, hSplit, -⟩ := hUnchanged e he unreadable hFailure
  have hEnd : e.after = e.before := by
    have hGet : rereadEvents.getLast? = some e := by rw [hSplit, List.getLast?_concat]
    cases hGet
    rfl
  exact ⟨⟨e, he, hFailure⟩, hStore, hWrites, hSpared e he unreadable hFailure (by rw [hEnd])⟩

end Latch
