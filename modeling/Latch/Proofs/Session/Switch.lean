import Latch.Proofs.Session.Run
import Latch.Proofs.Store.LockRows

/-!
# The switch

A request that meets a switch that is off is refused before anything else is looked at. So it makes no
difference to a run whether such requests are made or not, wherever the switch is turned on and off in
between, and whatever has happened to the store.

* `Session.Step.switched`, `Session.Step.switchedAll` — the switch after a step, and after many;
* `Session.Step.isGated` — a request that meets a switch that is off;
* `Session.ungated` — a run without such requests.

Main results:

* `Request.run_disabled` — such a request asks nothing of its surroundings;
* `Session.enabled_apply` — only the steps that are meant to turn the switch do so;
* `Session.take_gated` — a gated step is refused, makes no call, and changes nothing;
* `Session.takeAll_refused` — so it is in the middle of a run;
* `switch_gates_runs` — gated steps can be left out of any run.
-/

namespace Latch

open Program (Asks)

/-- A request that meets a switch that is off has ended before its first question. -/
theorem Request.run_disabled (r : Request) : (r.action false).run = .done (.error .disabled) := by
  cases r <;> rfl

namespace Session

variable {s : Session}

/-! ## The switch during a run -/

/-- The switch after a step. -/
def Step.switched (enabled : Bool) : Step → Bool
  | .enable => true
  | .disable => false
  | _ => enabled

/-- The switch after one step after another. -/
def Step.switchedAll (enabled : Bool) (steps : List Step) : Bool := steps.foldl switched enabled

/-- A request that meets a switch that is off. -/
def Step.isGated (enabled : Bool) : Step → Bool
  | .request _ => !enabled
  | _ => false

/-- A run without the steps that meet a switch that is off. The switch is turned by the others. -/
def ungated {α : Type} (step : α → Step) : Bool → List α → List α
  | _, [] => []
  | enabled, a :: rest =>
    if (step a).isGated enabled then ungated step enabled rest
    else a :: ungated step ((step a).switched enabled) rest

theorem enabled_interfere (s : Session) (call : RecordCall) (phase : Phase) :
    (s.interfere call phase).2.enabled = s.enabled := by
  unfold interfere
  split <;> rfl

theorem enabled_performObserved (s : Session) (call : RecordCall) :
    (s.performObserved call).2.enabled = s.enabled := by
  -- something may interfere before the call and after it, and the call comes in between
  have hBefore := enabled_interfere { s with calls := call.method :: s.calls } call .before
  unfold performObserved
  split
  · rename_i hInterfere
    rwa [hInterfere] at hBefore
  · rename_i s₁ hInterfere
    rw [hInterfere] at hBefore
    have hCall : (s₁.perform call).2.enabled = s.enabled := hBefore
    split
    · rename_i hPerform
      rwa [hPerform] at hCall
    · rename_i s₂ hPerform
      rw [hPerform] at hCall
      have hAfter : (s₂.interfere call .after).2.enabled = s.enabled :=
        (enabled_interfere s₂ call .after).trans hCall
      split
      · rename_i hLast
        rwa [hLast] at hAfter
      · rename_i hLast
        rwa [hLast] at hAfter

theorem enabled_answer (q : Effect) (s : Session) : (answer q s).2.enabled = s.enabled := by
  cases q with
  | readClock => rfl
  | record call =>
    unfold answer
    dsimp only
    split
    · exact enabled_performObserved s call
    · rfl

/-- No request turns the switch, whatever interferes with its calls. -/
theorem enabled_request (s : Session) (r : Request) : (s.request r).2.enabled = s.enabled := by
  have hAsks : (r.action s.enabled).run.Asks fun _ => True := Asks.of_forall (fun _ => trivial) _
  -- the invariant of the run is the switch itself
  refine hAsks.run_keeps (I := fun x : Session => x.enabled = s.enabled) ?_ rfl
  intro q x _ hx
  exact (enabled_answer q x).trans hx

theorem enabled_reopen (s : Session) : s.reopen.2.enabled = s.enabled := by
  unfold reopen
  dsimp only
  split <;> rfl

theorem enabled_administer (s : Session) (change? : Store → Option Store) :
    (s.administer change?).2.enabled = s.enabled := by
  unfold administer
  split <;> rfl

/-- **Only the steps that are meant to turn the switch do so.** -/
theorem enabled_apply (s : Session) (step : Step) :
    (s.apply step).2.enabled = step.switched s.enabled := by
  cases step with
  | request r =>
    rw [apply, answered_eq]
    exact enabled_request s r
  | reopen =>
    rw [apply, answered_eq]
    exact enabled_reopen s
  | record | migrate | checkHealth | migrationStatus | needsMigration =>
    rw [apply, answered_eq]
    rfl
  | recordVersions =>
    rw [apply, recordVersions, answered_eq]
    rfl
  | dropTable | forbid | permit => exact enabled_administer s _
  | _ => rfl

theorem enabled_takeAll (steps : List Step) (s : Session) :
    (takeAll steps s).2.enabled = Step.switchedAll s.enabled steps := by
  induction steps generalizing s with
  | nil => rfl
  | cons step rest ih =>
    have hStep : (s.take step).2.enabled = step.switched s.enabled :=
      enabled_apply { s with calls := [] } step
    rw [takeAll_cons, ih, hStep]
    rfl

/-! ## Steps that are gated -/

/-- **A gated step is refused**, makes no record call, and changes nothing. -/
theorem take_gated {step : Step} (h : step.isGated s.enabled = true) :
    s.take step = ((.error (.request .disabled), []), { s with calls := [] }) := by
  cases step with
  | request r =>
    have hOff : s.enabled = false := by simpa [Step.isGated] using h
    unfold take
    simp only [apply, request, hOff, Request.run_disabled, Program.run, answered]
    rfl
  | _ => cases h

/-- A request that meets a switch that is off is answered so in the middle of a run, and the steps after
it do not notice it. -/
theorem takeAll_refused {early late : List Step} {r : Request}
    (hOff : Step.switchedAll s.enabled early = false) :
    (takeAll (early ++ .request r :: late) s).1 = (takeAll early s).1 ++
      ⟨.request r, .error (.request .disabled), []⟩ :: (takeAll late (takeAll early s).2).1 ∧
    ((takeAll early s).2.take (.request r)).2 = { (takeAll early s).2 with calls := [] } := by
  have hEnabled : (takeAll early s).2.enabled = false := (enabled_takeAll early s).trans hOff
  have hGated : (Step.request r).isGated (takeAll early s).2.enabled = true := by
    rw [hEnabled]
    rfl
  have hTake := take_gated hGated
  refine ⟨?_, congrArg Prod.snd hTake⟩
  rw [takeAll_append, takeAll_cons, hTake]
  dsimp only
  -- that the notes about calls are cleared makes no difference to the steps after it
  rw [(takeAll_uncalled late (takeAll early s).2).1]

/-- A run goes as if its gated steps had not been made. -/
theorem takeAll_ungated (steps : List Step) (s : Session) :
    (takeAll (ungated id s.enabled steps) s).1 = ungated Taken.step s.enabled (takeAll steps s).1 ∧
      ({ (takeAll (ungated id s.enabled steps) s).2 with calls := [] } : Session) =
        { (takeAll steps s).2 with calls := [] } := by
  induction steps generalizing s with
  | nil => exact ⟨rfl, rfl⟩
  | cons step rest ih =>
    rw [takeAll_cons step rest]
    unfold ungated
    by_cases hGated : step.isGated s.enabled = true
    · -- the step is left out of both runs, and the session is the same after it
      obtain ⟨hTaken, hEnd⟩ := takeAll_uncalled rest s
      obtain ⟨hRest, hLast⟩ := ih s
      rw [take_gated hGated]
      simp only [id_eq, hGated, if_true, hTaken, hEnd]
      exact ⟨hRest, hLast⟩
    · -- the step is taken in both runs, and what is gated after it depends on the switch after it
      have hStep : (s.take step).2.enabled = step.switched s.enabled :=
        enabled_apply { s with calls := [] } step
      obtain ⟨hRest, hLast⟩ := ih (s.take step).2
      rw [hStep] at hRest hLast
      simp only [id_eq, hGated, Bool.false_eq_true, if_false]
      rw [takeAll_cons, hRest]
      exact ⟨rfl, hLast⟩

end Session

open Session (takeAll ungated)

/-- **The switch is a complete gate.** A session takes any steps, among them those that turn the switch,
close the store, drop its tables, or let something interfere with its calls.

* A request that meets a switch that is off has ended, as disabled, before it asks anything of its
  surroundings, the clock included.
* In a run it is answered so, without a record call, and the steps after it are answered as they are
  without it.
* If all such requests are left out, then the other steps are answered as before, with the same record
  calls, and the session ends as before: its store, clock and switch, and all files. What it has noted of
  the calls of its last step is no part of this. -/
theorem switch_gates_runs (s : Session) (steps : List Session.Step) :
    (∀ r : Request, (r.action false).run = .done (.error .disabled)) ∧
    (∀ early r late, steps = early ++ .request r :: late →
      Session.Step.switchedAll s.enabled early = false →
      (takeAll steps s).1 = (takeAll early s).1 ++
        ⟨.request r, .error (.request .disabled), []⟩ :: (takeAll late (takeAll early s).2).1 ∧
      ((takeAll early s).2.take (.request r)).2 = { (takeAll early s).2 with calls := [] }) ∧
    (takeAll (ungated id s.enabled steps) s).1 =
      ungated Session.Taken.step s.enabled (takeAll steps s).1 ∧
    ({ (takeAll (ungated id s.enabled steps) s).2 with calls := [] } : Session) =
      { (takeAll steps s).2 with calls := [] } := by
  refine ⟨Request.run_disabled, ?_, Session.takeAll_ungated steps s⟩
  rintro early r late rfl hOff
  exact Session.takeAll_refused hOff

/-! While the switch is off, the table of properties disappears and the store is closed. Nothing is seen of
that until the switch is on again. -/

def switchedOff : List Session.Step :=
  [.request (.lock ⟨"alice", 1, "sms-otp"⟩ 5000 none none), .disable, .dropTable .properties,
    .request (.setProperties ⟨"alice", 1, "sms-otp"⟩ ∅), .close,
    .request (.status ⟨"alice", 1, "sms-otp"⟩), .enable, .request (.status ⟨"alice", 1, "sms-otp"⟩)]

def unused : Session :=
  ⟨.memory, ⟨true, none⟩, true, ⟨1000⟩, ⟨.migrated, StoreConfig.memoryPath, none⟩, .blank [], [], []⟩

theorem switch_gates_runs_closed :
    Session.Step.switchedAll unused.enabled (switchedOff.take 5) = false ∧
      (takeAll switchedOff unused).1 = (takeAll (switchedOff.take 5) unused).1 ++
        ⟨.request (.status ⟨"alice", 1, "sms-otp"⟩), .error (.request .disabled), []⟩ ::
          (takeAll (switchedOff.drop 6) (takeAll (switchedOff.take 5) unused).2).1 ∧
      ungated id true switchedOff =
        [.request (.lock ⟨"alice", 1, "sms-otp"⟩ 5000 none none), .disable, .dropTable .properties,
          .close, .enable, .request (.status ⟨"alice", 1, "sms-otp"⟩)] ∧
      (takeAll (ungated id true switchedOff) unused).1 =
        ungated Session.Taken.step true (takeAll switchedOff unused).1 := by
  obtain ⟨-, hRefused, hSame, -⟩ := switch_gates_runs unused switchedOff
  have hOff : Session.Step.switchedAll unused.enabled (switchedOff.take 5) = false := rfl
  exact ⟨hOff, (hRefused _ _ _ rfl hOff).1, rfl, hSame⟩

end Latch
