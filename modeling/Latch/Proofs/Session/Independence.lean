import Latch.Proofs.Manager.Actions
import Latch.Proofs.Session.Run
import Latch.Proofs.Store.Parts

/-!
# Keys do not interfere

Whoever watches the lock of one key, or the properties of one key, sees the same whether anything
else is done in between or not. The clock and the switch are common to all, so what moves them is
watched as well.

* `Session.Step.part?` — the part that a step is about; `Session.Step.concerns` — a step that can
  make a difference to a part;
* `Session.Agree` — two sessions look alike to those who watch one part.

Main results:

* `Session.take_alike` — a step that concerns a part is answered alike by sessions that agree on it;
* `Session.take_other` — any other step leaves the part as it was;
* `Session.takeAll_alike` — so the steps that do not concern a part can be left out of a run;
* `Session.takeAll_swap` — steps about different parts can change places;
* `parts_do_not_interfere` — all this for the locks and properties that are seen in the end.
-/

namespace Latch

open Program (Asks)

namespace Session

/-! ## What a step is about -/

/-- The part that a step is about. -/
def Step.part? : Step → Option Part
  | .request r => some r.part
  | .record call => some call.part
  | _ => none

/-- Whether a step is about a part, or about what all parts have in common. -/
def Step.concerns (part : Part) (step : Step) : Bool := step.part?.all fun own => own = part

theorem Step.concerns_iff {part : Part} {step : Step} :
    step.concerns part = true ↔ ∀ own, step.part? = some own → own = part := by
  unfold concerns
  cases step.part? with
  | none => simp
  | some own => simp

theorem Step.not_concerns {part : Part} {step : Step} (h : ¬ step.concerns part = true) :
    ∃ own, step.part? = some own ∧ part ≠ own := by
  unfold concerns at h
  cases hPart : step.part? with
  | none => simp [hPart] at h
  | some own =>
    refine ⟨own, rfl, fun hEq => h ?_⟩
    simp [hPart, hEq]

theorem Step.isUse_of_part? {step : Step} {part : Part} (h : step.part? = some part) :
    step.isUse = true := by
  cases step with
  | request | record => rfl
  | _ => cases h

/-! ## Sessions that look alike -/

/-- Two sessions look alike to those who watch one part, and nothing waits to interfere. -/
structure Agree (part : Part) (s s' : Session) : Prop where
  wiring : s.wiring = s'.wiring
  enabled : s.enabled = s'.enabled
  clock : s.clock = s'.clock
  quiet : s.interferences = []
  quiet' : s'.interferences = []
  store : s.store.store.Agree part s'.store.store

namespace Agree

variable {part : Part} {s s' s'' : Session}

theorem refl (part : Part) (hQuiet : s.interferences = []) : Agree part s s :=
  ⟨rfl, rfl, rfl, hQuiet, hQuiet, .refl part s.store.store⟩

theorem symm (h : Agree part s s') : Agree part s' s :=
  ⟨h.wiring.symm, h.enabled.symm, h.clock.symm, h.quiet', h.quiet, h.store.symm⟩

theorem trans (h : Agree part s s') (h' : Agree part s' s'') : Agree part s s'' :=
  ⟨h.wiring.trans h'.wiring, h.enabled.trans h'.enabled, h.clock.trans h'.clock, h.quiet, h'.quiet',
    h.store.trans h'.store⟩

/-- What has been noted of calls is not looked at. -/
theorem with_calls (h : Agree part s s') (calls calls' : List RecordCall.Method) :
    Agree part { s with calls } { s' with calls := calls' } :=
  ⟨h.wiring, h.enabled, h.clock, h.quiet, h.quiet', h.store⟩

theorem time_eq (h : Agree part s s') : s.time = s'.time := by
  unfold time
  rw [h.wiring, h.clock]

end Agree

/-- Two sessions look alike, and have noted the same calls. -/
def Level (part : Part) (s s' : Session) : Prop := Agree part s s' ∧ s.calls = s'.calls

section Steps

variable {part other : Part} {s s' : Session}

/-! ## What the manager asks -/

/-- A question that is no call, or a call about a part. -/
def About (part : Part) : Effect → Prop
  | .readClock => True
  | .record call => call.part = part

/-- All questions of a request are about the part that the request is about. -/
theorem asks_about (enabled : Bool) (r : Request) : (r.action enabled).run.Asks (About r.part) := by
  refine (Request.asks_action enabled r).mono fun q hq => ?_
  cases hq with
  | readClock => trivial
  | record hKey hAbout =>
    show RecordCall.part _ = r.part
    rw [RecordCall.part, Request.part, hKey, hAbout]

theorem perform_alike {call : RecordCall} (hPart : call.part = part) (h : Level part s s') :
    (s.perform call).1 = (s'.perform call).1 ∧ Level part (s.perform call).2 (s'.perform call).2 := by
  obtain ⟨hAgree, hCalls⟩ := h
  obtain ⟨hReply, hStore⟩ := Store.perform_alike hPart hAgree.store
  rw [perform_eq, perform_eq]
  exact ⟨hReply, ⟨hAgree.wiring, hAgree.enabled, hAgree.clock, hAgree.quiet, hAgree.quiet', hStore⟩,
    hCalls⟩

theorem perform_other {call : RecordCall} (hOther : other ≠ call.part) (h : Agree other s' s) :
    Agree other s' (s.perform call).2 := by
  rw [perform_eq]
  exact ⟨h.wiring, h.enabled, h.clock, h.quiet, h.quiet',
    h.store.trans (Store.perform_other hOther s.store.store)⟩

theorem answer_alike {q : Effect} (hAbout : About part q) (h : Level part s s') :
    (answer q s).1 = (answer q s').1 ∧ Level part (answer q s).2 (answer q s').2 := by
  cases q with
  | readClock => exact ⟨h.1.time_eq, h⟩
  | record call =>
    unfold answer
    dsimp only
    rw [h.1.wiring]
    split
    · -- an observed call is noted on both sides
      rw [performObserved_of_quiet h.1.quiet, performObserved_of_quiet h.1.quiet']
      refine perform_alike hAbout ⟨h.1.with_calls _ _, ?_⟩
      show _ :: s.calls = _ :: s'.calls
      rw [h.2]
    · exact perform_alike hAbout h

theorem answer_other {q : Effect} (hAbout : About part q) (hOther : other ≠ part)
    (h : Agree other s' s) : Agree other s' (answer q s).2 := by
  cases q with
  | readClock => exact h
  | record call =>
    have hCall : other ≠ call.part := fun hEq => hOther (hEq.trans hAbout)
    unfold answer
    dsimp only
    split
    · rw [performObserved_of_quiet h.quiet']
      exact perform_other hCall (h.with_calls s'.calls _)
    · exact perform_other hCall h

theorem request_alike {r : Request} (hPart : r.part = part) (h : Level part s s') :
    (s.request r).1 = (s'.request r).1 ∧ Level part (s.request r).2 (s'.request r).2 := by
  subst hPart
  unfold request
  rw [h.1.enabled]
  exact (asks_about s'.enabled r).run_alike (fun _ _ _ hq hLevel => answer_alike hq hLevel) h

theorem request_other {r : Request} (hOther : other ≠ r.part) (h : Agree other s' s) :
    Agree other s' (s.request r).2 :=
  (asks_about s.enabled r).run_keeps (fun _ _ hq hAgree => answer_other hq hOther hAgree) h

/-! ## Steps -/

theorem apply_alike {step : Step} (hUse : step.isUse = true) (hConcerns : step.concerns part = true)
    (h : Level part s s') :
    (s.apply step).1 = (s'.apply step).1 ∧ Level part (s.apply step).2 (s'.apply step).2 := by
  have hOwn := Step.concerns_iff.mp hConcerns
  cases step with
  | request r =>
    obtain ⟨hReply, hAfter⟩ := request_alike (hOwn _ rfl) h
    simp only [apply, answered_eq, hReply]
    exact ⟨trivial, hAfter⟩
  | record call =>
    obtain ⟨hReply, hAfter⟩ := perform_alike (hOwn _ rfl) h
    simp only [apply, answered_eq, hReply]
    exact ⟨trivial, hAfter⟩
  | isEnabled =>
    simp only [apply, h.1.enabled]
    exact ⟨trivial, h⟩
  | describe =>
    -- the description shows the clock and the switch
    have hText : s.describe = s'.describe := by
      unfold describe clockText
      rw [h.1.wiring, h.1.clock, h.1.enabled]
    simp only [apply, hText]
    exact ⟨trivial, h⟩
  | enable | disable => exact ⟨rfl, ⟨h.1.wiring, rfl, h.1.clock, rfl, rfl, h.1.store⟩, h.2⟩
  | advance amount =>
    simp only [apply, setTime, h.1.clock]
    exact ⟨trivial, ⟨h.1.wiring, h.1.enabled, rfl, h.1.quiet, h.1.quiet', h.1.store⟩, h.2⟩
  | setClock moment =>
    simp only [apply, setTime, h.1.clock]
    exact ⟨trivial, ⟨h.1.wiring, h.1.enabled, rfl, h.1.quiet, h.1.quiet', h.1.store⟩, h.2⟩
  | _ => simp [Step.isUse] at hUse

theorem apply_other {step : Step} (hOther : ¬ step.concerns part = true) (h : Agree part s' s) :
    Agree part s' (s.apply step).2 := by
  obtain ⟨own, hPart, hNe⟩ := Step.not_concerns hOther
  cases step with
  | request r =>
    cases hPart
    simp only [apply, answered_eq]
    exact request_other hNe h
  | record call =>
    cases hPart
    simp only [apply, answered_eq]
    exact perform_other hNe h
  | _ => cases hPart

/-- A step that concerns a part is answered alike, with the same calls, by sessions that agree on
the part, and they still do afterwards. -/
theorem take_alike {step : Step} (hUse : step.isUse = true) (hConcerns : step.concerns part = true)
    (h : Agree part s s') :
    (s.take step).1 = (s'.take step).1 ∧ Agree part (s.take step).2 (s'.take step).2 := by
  obtain ⟨hOutcome, hAgree, hCalls⟩ := apply_alike hUse hConcerns ⟨h.with_calls [] [], rfl⟩
  unfold take
  dsimp only
  rw [hOutcome, hCalls]
  exact ⟨rfl, hAgree.with_calls [] []⟩

/-- A step that does not concern a part leaves it as it was. -/
theorem take_other {step : Step} (hOther : ¬ step.concerns part = true) (h : Agree part s' s) :
    Agree part s' (s.take step).2 :=
  (apply_other hOther (h.with_calls s'.calls [])).with_calls s'.calls []

/-! ## Runs -/

/-- The steps of a run that concern a part are answered as if the others had been left out. -/
theorem takeAll_alike {steps : List Step} (hUse : ∀ step ∈ steps, step.isUse = true)
    (h : Agree part s s') :
    (takeAll steps s).1.filter (·.step.concerns part) =
      (takeAll (steps.filter (·.concerns part)) s').1 ∧
    Agree part (takeAll steps s).2 (takeAll (steps.filter (·.concerns part)) s').2 := by
  induction steps generalizing s s' with
  | nil => exact ⟨rfl, h⟩
  | cons step rest ih =>
    rw [List.forall_mem_cons] at hUse
    by_cases hConcerns : step.concerns part = true
    · -- both runs take the step
      obtain ⟨hAnswer, hAgree⟩ := take_alike hUse.1 hConcerns h
      obtain ⟨hRest, hEnd⟩ := ih hUse.2 hAgree
      rw [List.filter_cons_of_pos hConcerns, takeAll_cons, takeAll_cons,
        List.filter_cons_of_pos (by exact hConcerns), hRest, hAnswer]
      exact ⟨rfl, hEnd⟩
    · -- only the first run takes it, and the part stays as it was
      have hAgree := (take_other hConcerns h.symm).symm
      obtain ⟨hRest, hEnd⟩ := ih hUse.2 hAgree
      rw [List.filter_cons_of_neg hConcerns, takeAll_cons,
        List.filter_cons_of_neg (by exact hConcerns)]
      exact ⟨hRest, hEnd⟩

/-- Runs in which the same steps concern a part are answered alike in these, and agree on the
part. -/
theorem takeAll_congr {steps steps' : List Step} (hQuiet : s.interferences = [])
    (hUse : ∀ step ∈ steps, step.isUse = true) (hUse' : ∀ step ∈ steps', step.isUse = true)
    (hSame : steps.filter (·.concerns part) = steps'.filter (·.concerns part)) :
    (takeAll steps s).1.filter (·.step.concerns part) =
      (takeAll steps' s).1.filter (·.step.concerns part) ∧
    Agree part (takeAll steps s).2 (takeAll steps' s).2 := by
  obtain ⟨hTaken, hAgree⟩ := takeAll_alike hUse (.refl part hQuiet)
  obtain ⟨hTaken', hAgree'⟩ := takeAll_alike hUse' (.refl part hQuiet)
  rw [hSame] at hTaken hAgree
  exact ⟨hTaken.trans hTaken'.symm, hAgree.trans hAgree'.symm⟩

/-- Sessions that agree on every part answer every use alike, and go on to agree. -/
theorem takeAll_same {steps : List Step} (hUse : ∀ step ∈ steps, step.isUse = true)
    (h : ∀ part, Agree part s s') : (takeAll steps s).1 = (takeAll steps s').1 := by
  induction steps generalizing s s' with
  | nil => rfl
  | cons step rest ih =>
    rw [List.forall_mem_cons] at hUse
    -- every step concerns some part, so its answer is the same
    obtain ⟨own, hOwn⟩ : ∃ own, step.concerns own = true := by
      refine ⟨step.part?.getD (.lock ⟨"", 0, ""⟩), Step.concerns_iff.mpr fun own hPart => ?_⟩
      rw [hPart, Option.getD_some]
    have hAnswer := (take_alike hUse.1 hOwn (h own)).1
    have hAfter : ∀ part, Agree part (s.take step).2 (s'.take step).2 := by
      intro part
      by_cases hConcerns : step.concerns part = true
      · exact (take_alike hUse.1 hConcerns (h part)).2
      · exact take_other hConcerns (take_other hConcerns (h part).symm).symm
    rw [takeAll_cons, takeAll_cons, hAnswer, ih hUse.2 hAfter]

/-- Steps about different parts can change places. -/
theorem takeAll_swap {a b : Step} {p q : Part} (hQuiet : s.interferences = [])
    (ha : a.part? = some p) (hb : b.part? = some q) (hNe : p ≠ q) :
    (takeAll [b, a] s).1 = (takeAll [a, b] s).1.reverse ∧
      ∀ part, Agree part (takeAll [a, b] s).2 (takeAll [b, a] s).2 := by
  have hUseA : a.isUse = true := Step.isUse_of_part? ha
  have hUseB : b.isUse = true := Step.isUse_of_part? hb
  have hUse : ∀ step ∈ [a, b], step.isUse = true := by simp [hUseA, hUseB]
  have hUse' : ∀ step ∈ [b, a], step.isUse = true := by simp [hUseA, hUseB]
  have hConcerns : ∀ part, a.concerns part = decide (p = part) ∧ b.concerns part = decide (q = part) :=
    fun part => ⟨by simp [Step.concerns, ha], by simp [Step.concerns, hb]⟩
  -- at most one of the two steps concerns a part
  have hSame : ∀ part, [a, b].filter (·.concerns part) = [b, a].filter (·.concerns part) := by
    intro part
    obtain ⟨hOwn, hOther⟩ := hConcerns part
    simp only [List.filter_cons, List.filter_nil, hOwn, hOther, decide_eq_true_eq]
    by_cases hp : p = part
    · have hq : ¬ q = part := fun hEq => hNe (hp.trans hEq.symm)
      simp [hp, hq]
    · simp [hp]
  have hBoth := fun part => takeAll_congr hQuiet hUse hUse' (hSame part)
  refine ⟨?_, fun part => (hBoth part).2⟩
  -- the part of each step tells that its answer is the same in both orders
  have hFirst := (hBoth p).1
  have hSecond := (hBoth q).1
  simp only [takeAll, List.filter_cons, List.filter_nil, hConcerns, hNe, hNe.symm, decide_true,
    decide_false, if_true, Bool.false_eq_true, if_false, List.cons.injEq, and_true] at hFirst hSecond
  simp only [takeAll, List.reverse_cons, List.reverse_nil, List.nil_append, List.cons_append]
  rw [hFirst, hSecond]

end Steps

end Session

open Session (takeAll)

/-- **Keys and tables do not interfere.** In a run of operations on locks and properties of any
keys, the operations on the lock of a key are answered as if there had been no others, and so are
those on the properties of a key; what is stored for the key in the end is the same too. Keys are
different as soon as a byte is. So whatever is done next to one lock or to the properties of one key
leaves all other locks and properties alone, and two such operations can change places: they are
answered alike in either order, and so is everything that is asked later. -/
theorem parts_do_not_interfere {s : Session} {steps : List Session.Step}
    (hUse : ∀ step ∈ steps, step.isUse = true) (hQuiet : s.interferences = []) :
    (∀ key, let kept := steps.filter (·.concerns (.lock key))
      (takeAll steps s).1.filter (·.step.concerns (.lock key)) = (takeAll kept s).1 ∧
        (takeAll steps s).2.store.store.lock? key = (takeAll kept s).2.store.store.lock? key) ∧
    (∀ key, let kept := steps.filter (·.concerns (.properties key))
      (takeAll steps s).1.filter (·.step.concerns (.properties key)) = (takeAll kept s).1 ∧
        (takeAll steps s).2.store.store.property? key =
          (takeAll kept s).2.store.store.property? key) ∧
    (∀ k k' : Key, k = k' ↔ ByteOrder.bytes k.user = ByteOrder.bytes k'.user ∧ k.tenant = k'.tenant ∧
      ByteOrder.bytes k.feature = ByteOrder.bytes k'.feature) ∧
    (∀ (next : Session.Step) part key, next.part? = some part →
      let before := (takeAll steps s).2.store.store
      let after := ((takeAll steps s).2.take next).2.store.store
      (part ≠ .lock key → after.lock? key = before.lock? key) ∧
        (part ≠ .properties key → after.property? key = before.property? key)) ∧
    ∀ (a b : Session.Step) p q, a.part? = some p → b.part? = some q → p ≠ q →
      let s₁ := (takeAll steps s).2
      (takeAll [b, a] s₁).1 = (takeAll [a, b] s₁).1.reverse ∧
        (∀ key, (takeAll [a, b] s₁).2.store.store.lock? key =
            (takeAll [b, a] s₁).2.store.store.lock? key ∧
          (takeAll [a, b] s₁).2.store.store.property? key =
            (takeAll [b, a] s₁).2.store.store.property? key) ∧
        ∀ more, (∀ step ∈ more, step.isUse = true) →
          (takeAll more (takeAll [a, b] s₁).2).1 = (takeAll more (takeAll [b, a] s₁).2).1 := by
  have hAlike : ∀ part, _ ∧ _ := fun part => Session.takeAll_alike hUse (.refl part hQuiet)
  have hQuiet₁ : (takeAll steps s).2.interferences = [] := (hAlike (.lock ⟨"", 0, ""⟩)).2.quiet
  refine ⟨fun key => ?_, fun key => ?_, fun k k' => Key.eq_iff_bytes, ?_, ?_⟩
  · obtain ⟨hTaken, hAgree⟩ := hAlike (.lock key)
    exact ⟨hTaken, hAgree.store.lock?_eq⟩
  · obtain ⟨hTaken, hAgree⟩ := hAlike (.properties key)
    exact ⟨hTaken, hAgree.store.property?_eq⟩
  · intro next part key hPart
    have hOther : ∀ other, part ≠ other →
        (takeAll steps s).2.Agree other ((takeAll steps s).2.take next).2 := by
      intro other hNe
      have hConcerns : ¬ next.concerns other = true :=
        fun hConcerns => hNe (Session.Step.concerns_iff.mp hConcerns part hPart)
      exact Session.take_other hConcerns (.refl other hQuiet₁)
    exact ⟨fun hNe => (hOther _ hNe).store.lock?_eq.symm,
      fun hNe => (hOther _ hNe).store.property?_eq.symm⟩
  · intro a b p q ha hb hNe
    -- the two orders leave sessions behind that nothing can tell apart
    obtain ⟨hTaken, hAgree⟩ := Session.takeAll_swap hQuiet₁ ha hb hNe
    refine ⟨hTaken, fun key => ⟨?_, ?_⟩, fun more hMore => Session.takeAll_same hMore hAgree⟩
    · exact (hAgree (.lock key)).store.lock?_eq
    · exact (hAgree (.properties key)).store.property?_eq

/-! Two keys differ in the tenant alone. The lock of the first one is made, expires, and is removed,
while the other one has a lock and properties of its own. -/

def neighbour (tenant : TenantId) : Key := ⟨"alice", tenant, "sms-otp"⟩

def neighbourly : List Session.Step :=
  [.request (.lock (neighbour 1) 5000 none none), .request (.lock (neighbour 2) 1000 none none),
    .record (.addProperties (neighbour 1) (.ofList [("plan", "pro")])), .disable, .advance 6000, .enable,
    .request (.unlock (neighbour 2)), .request (.status (neighbour 1)),
    .request (.deleteAllProperties (neighbour 1))]

def atNoon : Session :=
  ⟨.memory, ⟨true, none⟩, true, ⟨1000⟩, ⟨.migrated, StoreConfig.memoryPath, none⟩, .blank [], [], []⟩

theorem parts_do_not_interfere_neighbours :
    (∀ step ∈ neighbourly, step.isUse = true) ∧ atNoon.interferences = [] ∧
      (takeAll neighbourly atNoon).1.filter (·.step.concerns (.lock (neighbour 1))) =
        (takeAll [.request (.lock (neighbour 1) 5000 none none), .disable, .advance 6000, .enable,
          .request (.status (neighbour 1))] atNoon).1 ∧
      (takeAll neighbourly atNoon).2.store.store.property? (neighbour 2) =
        (takeAll [.disable, .advance 6000, .enable] atNoon).2.store.store.property? (neighbour 2) := by
  have hUse : ∀ step ∈ neighbourly, step.isUse = true := by decide
  obtain ⟨hLocks, hProperties, -⟩ := parts_do_not_interfere (s := atNoon) hUse rfl
  exact ⟨hUse, rfl, (hLocks (neighbour 1)).1, (hProperties (neighbour 2)).2⟩

end Latch
