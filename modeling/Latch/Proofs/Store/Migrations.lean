import Latch.Proofs.Run.Interleaving
import Latch.Proofs.Store.Layout

/-!
# Migrations that take turns

Any number of migrations run over one store, statement by statement, and each may be stopped for
good after any of its statements. Making a table, making its index, and recording its version are
three statements, and what a migration leaves out was decided by one read. Still no version is ever
recorded without its table: a version is inserted only after its table was made, tables are made
only where they are missing, and a version is recorded once.

* `Migration.statements` — the statements of a migration on a new store; `attemptAll` — carries out
  statements up to the first that fails;
* `Statement.Achieved` — what a statement of a migration leaves behind for good;
* `Event.recorded?` — the version that an event has recorded; `SinceRead` — the events since a read;
* `MigrationStage` — how far a migration has come; `Migrating` — everything that is known of a run;
* `Migration.Reached` — the stores that migrations and other uses lead to; `Store.Layered` — what is
  said of them.

Main results:

* `MigrationStage.turn`, `MigrationStage.beside` — what a turn of its own, and one of another, does
  to a migration;
* `Migrating.exists_ok` — not all of them are refused;
* `migrations_survive` — what holds at every moment, why a migration fails, and that a later one
  heals what others have left behind.
-/

namespace Latch

open Program (Asks)
open RecordCall (Executes)
open Store (Statement Fault Attempt)

/-! ## The statements of a migration -/

section Scripts

variable {α : Type}

/-- An attempt that begins with a statement. -/
theorem run_attempt_bind (st : Statement) (f : st.Result → Attempt α) :
    (st.attempt >>= f).run = .ask st fun
      | .ok result => (f result).run
      | .error fault => .done (.error fault) := by
  refine congrArg (Program.ask st) (funext fun reply => ?_)
  cases reply <;> rfl

/-- Carries out statements up to the first that fails. -/
def attemptAll : List Statement → Attempt Unit
  | [] => pure ()
  | st :: rest => do
    let _ ← st.attempt
    attemptAll rest

namespace Store.Migration

/-- The statements of a migration on a new store, after its read. -/
def statements : List Statement :=
  [.createTable .locks, .createIndex .locks, .insertVersion 1,
    .createTable .properties, .createIndex .properties, .insertVersion 2]

/-- What a migration does once it knows the current version. -/
def upgrade (current : Int32) : Attempt Unit := do
  if current < target then
    if current < 1 then step .locks 1
    step .properties 2

theorem runAll_eq : runAll =
    (Statement.createTable .migrations).attempt >>= fun _ =>
      Statement.selectVersion.attempt >>= fun version => upgrade (Option.getD version 0) := by
  show (currentVersion >>= upgrade) = _
  rw [currentVersion, bind_assoc]
  refine congrArg _ (funext fun _ => ?_)
  rw [bind_assoc]
  refine congrArg _ (funext fun version => ?_)
  rw [pure_bind]

theorem step_bind (table : TableName) (version : Int64) (rest : List Statement) :
    (step table version >>= fun _ => attemptAll rest) =
      attemptAll (.createTable table :: .createIndex table :: .insertVersion version :: rest) := by
  simp only [step, attemptAll, bind_assoc, pure_bind]

/-- The statements that are left out are those whose version is recorded. -/
theorem upgrade_cases (current : Int32)
    (h : current = 0 ∨ current = 1 ∨ current = 2) :
    ∃ done rest, statements = done ++ rest ∧ upgrade current = attemptAll rest ∧
      ((current = 0 ∧ done = []) ∨ (current = 1 ∧ done = statements.take 3) ∨
        current = 2 ∧ done = statements) := by
  have hLast : step .properties 2 = attemptAll (statements.drop 3) := by
    have hSame := step_bind .properties 2 []
    rwa [attemptAll, bind_pure] at hSame
  rcases h with rfl | rfl | rfl
  · refine ⟨[], statements, rfl, ?_, Or.inl ⟨rfl, rfl⟩⟩
    show (step .locks 1 >>= fun _ => step .properties 2) = _
    rw [hLast]
    exact step_bind .locks 1 _
  · exact ⟨statements.take 3, statements.drop 3, rfl, hLast, Or.inr (Or.inl ⟨rfl, rfl⟩)⟩
  · exact ⟨statements, [], rfl, rfl, Or.inr (Or.inr ⟨rfl, rfl⟩)⟩

/-- No statement comes twice. -/
theorem fresh_of_split {done rest : List Statement} {st : Statement}
    (h : statements = done ++ st :: rest) : st ∉ done ∧ st ∉ rest := by
  have hNodup : statements.Nodup := by decide
  rw [h, List.nodup_append, List.nodup_cons] at hNodup
  exact ⟨fun hDone => hNodup.2.2 st hDone st (List.mem_cons_self ..) rfl, hNodup.2.1.1⟩

/-- What has come before a statement of a migration. -/
theorem statements_cases {done rest : List Statement} {st : Statement}
    (h : statements = done ++ st :: rest) :
    (∃ table, st = .createTable table) ∨
    (∃ table, st = .createIndex table ∧ .createTable table ∈ done) ∨
    (st = .insertVersion 1 ∧ .createTable .locks ∈ done ∧ .insertVersion 2 ∉ done) ∨
    (st = .insertVersion 2 ∧ .createTable .properties ∈ done ∧ .insertVersion 1 ∈ done ∧ rest = []) := by
  -- there are six places for the statement
  unfold statements at h
  rcases done with _ | ⟨a, _ | ⟨b, _ | ⟨c, _ | ⟨d, _ | ⟨e, _ | ⟨f, done⟩⟩⟩⟩⟩⟩
  · cases h
    exact Or.inl ⟨_, rfl⟩
  · cases h
    exact Or.inr (Or.inl ⟨_, rfl, by decide⟩)
  · cases h
    exact Or.inr (Or.inr (Or.inl ⟨rfl, by decide, by decide⟩))
  · cases h
    exact Or.inl ⟨_, rfl⟩
  · cases h
    exact Or.inr (Or.inl ⟨_, rfl, by decide⟩)
  · cases h
    exact Or.inr (Or.inr (Or.inr ⟨rfl, by decide, by decide, rfl⟩))
  · simp at h

/-- The second version is not inserted before any other. -/
theorem insertVersion_cases {done rest : List Statement} {version : Int64}
    (h : statements = done ++ .insertVersion version :: rest) :
    .insertVersion 2 ∉ done ∧ (version = 1 ∨ version = 2) := by
  rcases statements_cases h with ⟨_, hOther⟩ | ⟨_, hOther, -⟩ | ⟨hFirst, -, hFresh⟩ | ⟨hLast, -⟩
  · cases hOther
  · cases hOther
  · cases hFirst
    exact ⟨hFresh, Or.inl rfl⟩
  · cases hLast
    exact ⟨(fresh_of_split h).1, Or.inr rfl⟩

/-- A migration is about tables and versions, not about rows. -/
theorem asks_runAll : runAll.run.Asks (·.part? = none) := by
  have hAttempt : ∀ st : Statement, st.part? = none → st.attempt.run.Asks (·.part? = none) :=
    fun st hPart => ⟨hPart, fun _ => trivial⟩
  have hStep : ∀ table version, (step table version).run.Asks (·.part? = none) := by
    intro table version
    refine Asks.attempt_bind (hAttempt _ rfl) fun _ => Asks.attempt_bind (hAttempt _ rfl) fun _ => ?_
    exact Asks.attempt_bind (hAttempt _ rfl) fun _ => trivial
  rw [runAll_eq]
  refine Asks.attempt_bind (hAttempt _ rfl) fun _ => Asks.attempt_bind (hAttempt _ rfl) fun version => ?_
  unfold upgrade
  split
  · split
    · exact Asks.attempt_bind (hStep _ _) fun _ => hStep _ _
    · exact hStep _ _
  · trivial

end Store.Migration

end Scripts

/-! ## What statements leave behind -/

/-- What a statement of a migration leaves behind for good. -/
def Store.Statement.Achieved (s : Store) : Statement → Prop
  | .createTable table => s.tables.hasTable table = true
  | .insertVersion version => version ∈ s.recorded
  | _ => True

theorem Store.Statement.Achieved.mono {s s' : Store} {st : Statement} (h : st.Achieved s)
    (hGrown : s.Grown s') : st.Achieved s' := by
  cases st with
  | createTable table => exact hGrown.tables table h
  | insertVersion version => exact hGrown.recorded version h
  | _ => trivial

/-- A read decides what is left out: statements whose effects are there already. -/
theorem read_cases {s : Store} (h : s.Consistent) (hTable : s.tables.hasTable .migrations = true) :
    ∃ version? done rest, Store.execute .selectVersion s = (.ok version?, s) ∧
      Store.Migration.statements = done ++ rest ∧
      Store.Migration.upgrade (Option.getD version? 0) = attemptAll rest ∧
      (∀ st ∈ done, st.Achieved s) ∧ ∀ v, .insertVersion v ∈ rest → v ∉ s.recorded := by
  obtain ⟨version?, hExecute, hVersions⟩ := h.execute_selectVersion hTable
  rcases hVersions with ⟨hRecorded, rfl⟩ | ⟨hRecorded, rfl⟩ | ⟨hRecorded, rfl⟩
  · obtain ⟨done, rest, hSplit, hUpgrade, hDone⟩ :=
      Store.Migration.upgrade_cases 0 (Or.inl rfl)
    obtain rfl : done = [] := by simpa using hDone
    exact ⟨none, [], rest, hExecute, hSplit, hUpgrade, by simp, by simp [hRecorded]⟩
  · have hLocks := h.locks (by simp [hRecorded])
    obtain ⟨done, rest, hSplit, hUpgrade, hDone⟩ :=
      Store.Migration.upgrade_cases 1 (Or.inr (Or.inl rfl))
    obtain rfl : done = Store.Migration.statements.take 3 := by simpa using hDone
    refine ⟨some 1, _, rest, hExecute, hSplit, hUpgrade, ?_, ?_⟩
    · simp [Store.Migration.statements, Statement.Achieved, hLocks, hRecorded]
    · have hWhole := List.take_append_drop 3 Store.Migration.statements
      obtain rfl : Store.Migration.statements.drop 3 = rest :=
        List.append_cancel_left (hWhole.trans hSplit)
      simp [Store.Migration.statements, hRecorded]
  · have hLocks := h.locks (by simp [hRecorded])
    have hProperties := h.properties (by simp [hRecorded])
    obtain ⟨done, rest, hSplit, hUpgrade, hDone⟩ :=
      Store.Migration.upgrade_cases 2 (Or.inr (Or.inr rfl))
    obtain rfl : done = Store.Migration.statements := by simpa using hDone
    obtain rfl : rest = [] := List.append_right_eq_self.mp hSplit.symm
    refine ⟨some 2, _, [], hExecute, hSplit, hUpgrade, ?_, by simp⟩
    simp [Store.Migration.statements, Statement.Achieved, hLocks, hProperties, hRecorded]

/-! ## Events -/

section Events

variable {ι : Type}

/-- The version that an event has recorded. -/
def Event.recorded? : Event ι Statement.Reply Store → Option Int64
  | ⟨_, .insertVersion version, .ok _, _, _⟩ => some version
  | _ => none

/-- The events since a migration has read the current version. -/
def SinceRead (i : ι) (es mid : List (Event ι Statement.Reply Store)) (read : Store) : Prop :=
  ∃ early version?, es = early ++ ⟨i, .selectVersion, .ok version?, read, read⟩ :: mid

theorem SinceRead.concat {i : ι} {es mid : List (Event ι Statement.Reply Store)} {read : Store}
    (h : SinceRead i es mid read) (e : Event ι Statement.Reply Store) :
    SinceRead i (es ++ [e]) (mid ++ [e]) read := by
  obtain ⟨early, version?, rfl⟩ := h
  exact ⟨early, version?, by simp⟩

/-- Another migration has recorded a version. -/
def RecordedByOther (i : ι) (version : Int64) (es : List (Event ι Statement.Reply Store)) : Prop :=
  ∃ e ∈ es, e.actor ≠ i ∧ e.recorded? = some version

theorem RecordedByOther.concat {i : ι} {version : Int64} {es : List (Event ι Statement.Reply Store)}
    (h : RecordedByOther i version es) (e : Event ι Statement.Reply Store) :
    RecordedByOther i version (es ++ [e]) := by
  obtain ⟨other, hMem, hOther⟩ := h
  exact ⟨other, List.mem_append_left _ hMem, hOther⟩

/-- A migration has recorded those versions only that are among some statements. -/
def Owns (i : ι) (es : List (Event ι Statement.Reply Store)) (done : List Statement) : Prop :=
  ∀ e ∈ es, e.actor = i → ∀ version, e.recorded? = some version → .insertVersion version ∈ done

theorem Owns.concat {i : ι} {es : List (Event ι Statement.Reply Store)} {done done' : List Statement}
    {e : Event ι Statement.Reply Store} (h : Owns i es done) (hDone : done ⊆ done')
    (hEvent : e.actor = i → ∀ version, e.recorded? = some version → .insertVersion version ∈ done') :
    Owns i (es ++ [e]) done' := by
  intro x hMem hActor version hVersion
  rcases List.mem_append.mp hMem with hOld | hLast
  · exact hDone (h x hOld hActor version hVersion)
  · rw [List.mem_singleton] at hLast
    subst hLast
    exact hEvent hActor version hVersion

end Events

/-! ## Stages -/

/-- A migration has read the current version and has carried out some of its statements. What it has
not carried out yet is missing since the read, unless another migration has brought it. -/
structure Underway {ι : Type} (i : ι) (es : List (Event ι Statement.Reply Store)) (s : Store)
    (mid : List (Event ι Statement.Reply Store)) (read : Store) (done rest : List Statement) : Prop where
  since : SinceRead i es mid read
  split : Store.Migration.statements = done ++ rest
  table : s.tables.hasTable .migrations = true
  achieved : ∀ st ∈ done, st.Achieved s
  missing : ∀ v, .insertVersion v ∈ rest → v ∉ read.recorded
  others : ∀ v, .insertVersion v ∈ rest → v ∈ s.recorded → RecordedByOther i v mid
  owns : Owns i es done

/-- How far a migration has come, and what the store is like. -/
inductive MigrationStage {ι : Type} (i : ι) (es : List (Event ι Statement.Reply Store)) (s : Store) :
    Store.Script (Except Fault Unit) → Prop
  | started (hOwns : Owns i es []) : MigrationStage i es s Store.Migration.runAll.run
  | prepared (hTable : s.tables.hasTable .migrations = true) (hOwns : Owns i es []) :
      MigrationStage i es s (Statement.selectVersion.attempt >>= fun version =>
        Store.Migration.upgrade (Option.getD version 0)).run
  | underway {read : Store} {mid : List (Event ι Statement.Reply Store)} {done rest : List Statement}
      (hUnderway : Underway i es s mid read done rest) : MigrationStage i es s (attemptAll rest).run
  | refused {read then_ : Store} {mid late : List (Event ι Statement.Reply Store)}
      {done rest : List Statement} {v : Int64}
      (hRead : SinceRead i es (mid ++ ⟨i, .insertVersion v, .error .duplicate, then_, then_⟩ :: late)
        read)
      (hSplit : Store.Migration.statements = done ++ .insertVersion v :: rest)
      (hMissing : v ∉ read.recorded) (hOther : RecordedByOther i v mid) (hOwns : Owns i es done) :
      MigrationStage i es s (.done (.error .duplicate))

section Stages

variable {ι : Type} {i : ι} {es mid : List (Event ι Statement.Reply Store)} {read s s' : Store}
  {p : Store.Script (Except Fault Unit)} {e : Event ι Statement.Reply Store}
  {done rest : List Statement} {st : Statement}

theorem Underway.beside (h : Underway i es s mid read done rest) (hOther : e.actor ≠ i)
    (hGrown : s.Grown s') (hRecorded : ∀ v ∈ s'.recorded, v ∈ s.recorded ∨ e.recorded? = some v) :
    Underway i (es ++ [e]) s' (mid ++ [e]) read done rest where
  since := h.since.concat e
  split := h.split
  table := hGrown.tables _ h.table
  achieved st hMem := (h.achieved st hMem).mono hGrown
  missing := h.missing
  others v hRest hThere := by
    -- the version was there, or the turn has just recorded it
    rcases hRecorded v hThere with hOld | hEvent
    · exact (h.others v hRest hOld).concat e
    · exact ⟨e, by simp, hOther, hEvent⟩
  owns := h.owns.concat (List.Subset.refl _) fun hActor => absurd hActor hOther

/-- A statement that has succeeded is one of those that are done. -/
theorem Underway.next (h : Underway i es s mid read done (st :: rest)) (hGrown : s.Grown s')
    (hAchieved : st.Achieved s') (hEvent : ∀ v, e.recorded? = some v → st = .insertVersion v)
    (hRecorded : ∀ v ∈ s'.recorded, v ∈ s.recorded ∨ e.recorded? = some v) :
    Underway i (es ++ [e]) s' (mid ++ [e]) read (done ++ [st]) rest where
  since := h.since.concat e
  split := by rw [h.split, List.append_assoc, List.singleton_append]
  table := hGrown.tables _ h.table
  achieved st' hMem := by
    rcases List.mem_append.mp hMem with hOld | hLast
    · exact (h.achieved st' hOld).mono hGrown
    · rw [List.mem_singleton.mp hLast]
      exact hAchieved
  missing v hRest := h.missing v (List.mem_cons_of_mem _ hRest)
  others v hRest hThere := by
    rcases hRecorded v hThere with hOld | hNow
    · exact (h.others v (List.mem_cons_of_mem _ hRest) hOld).concat e
    · -- no version is inserted twice
      have hFresh := (Store.Migration.fresh_of_split h.split).2
      rw [hEvent v hNow] at hFresh
      exact absurd hRest hFresh
  owns := h.owns.concat (List.subset_append_left _ _) fun _ v hNow => by
    rw [hEvent v hNow]
    simp

/-- A turn of another migration leaves a migration where it is. -/
theorem MigrationStage.beside (h : MigrationStage i es s p) (hOther : e.actor ≠ i)
    (hGrown : s.Grown s') (hRecorded : ∀ v ∈ s'.recorded, v ∈ s.recorded ∨ e.recorded? = some v) :
    MigrationStage i (es ++ [e]) s' p := by
  have hOwns' : ∀ {done}, Owns i es done → Owns i (es ++ [e]) done :=
    fun hOwns => hOwns.concat (List.Subset.refl _) fun hActor => absurd hActor hOther
  cases h with
  | started hOwns => exact .started (hOwns' hOwns)
  | prepared hTable hOwns => exact .prepared (hGrown.tables _ hTable) (hOwns' hOwns)
  | underway hUnderway => exact .underway (hUnderway.beside hOther hGrown hRecorded)
  | refused hRead hSplit hMissing hRefusal hOwns =>
    have hRead' := hRead.concat e
    rw [List.append_assoc, List.cons_append] at hRead'
    exact .refused hRead' hSplit hMissing hRefusal (hOwns' hOwns)

/-- How a migration that is done has ended. -/
theorem MigrationStage.done_cases {result : Except Fault Unit}
    (h : MigrationStage i es s (.done result)) :
    (result = .ok () ∧ ∀ st ∈ Store.Migration.statements, st.Achieved s) ∨
    ∃ read then_ mid late done rest v, result = .error .duplicate ∧
      SinceRead i es (mid ++ ⟨i, .insertVersion v, .error .duplicate, then_, then_⟩ :: late) read ∧
      Store.Migration.statements = done ++ .insertVersion v :: rest ∧ v ∉ read.recorded ∧
      RecordedByOther i v mid ∧ Owns i es done := by
  generalize hp : (Program.done result : Store.Script (Except Fault Unit)) = p at h
  -- at every other stage there is a statement left
  cases h with
  | started =>
    rw [Store.Migration.runAll_eq, run_attempt_bind] at hp
    cases hp
  | prepared =>
    rw [run_attempt_bind] at hp
    cases hp
  | @underway read mid done rest hUnderway =>
    cases rest with
    | nil =>
      cases hp
      refine Or.inl ⟨rfl, fun st hMem => ?_⟩
      rw [hUnderway.split, List.append_nil] at hMem
      exact hUnderway.achieved st hMem
    | cons st rest =>
      rw [attemptAll, run_attempt_bind] at hp
      cases hp
  | refused hRead hSplit hMissing hOther hOwns =>
    cases hp
    exact Or.inr ⟨_, _, _, _, _, _, _, rfl, hRead, hSplit, hMissing, hOther, hOwns⟩

/-- What one turn of a migration does: the store stays consistent and loses nothing, and the
migration comes to another stage. -/
structure MigrationTurn {ι : Type} (es : List (Event ι Statement.Reply Store))
    (e : Event ι Statement.Reply Store) (p : Store.Script (Except Fault Unit)) : Prop where
  consistent : e.after.Consistent
  grown : e.before.Grown e.after
  recorded : ∀ v ∈ e.after.recorded, v ∈ e.before.recorded ∨ e.recorded? = some v
  stage : MigrationStage e.actor (es ++ [e]) e.after p

/-- A version is inserted after its table was made and the version before it, or another migration
has recorded it since the read. -/
theorem Underway.insertVersion {version : Int64} {r : (Statement.insertVersion version).Reply}
    {next : (Statement.insertVersion version).Reply → Store.Script (Except Fault Unit)}
    (h : Underway i es s mid read done (.insertVersion version :: rest))
    (hAsk : (attemptAll (.insertVersion version :: rest)).run = .ask (.insertVersion version) next)
    (hNext : (version = 1 ∧ s.tables.hasTable .locks = true) ∨
      (version = 2 ∧ 1 ∈ s.recorded ∧ s.tables.hasTable .properties = true))
    (hConsistent : s.Consistent) (hAnswer : Executes (.insertVersion version) s r s') :
    MigrationTurn es ⟨i, .insertVersion version, r, s, s'⟩ (next r) := by
  rw [attemptAll, run_attempt_bind] at hAsk
  cases hAsk
  by_cases hOld : version ∈ s.recorded
  · -- the version was missing when this migration read, so another one has recorded it
    cases hAnswer.symm.trans (hConsistent.execute_insertVersion_duplicate h.table hOld)
    have hOther := h.others version (List.mem_cons_self ..) hOld
    have hMissing := h.missing version (List.mem_cons_self ..)
    have hSince := h.since.concat ⟨i, .insertVersion version, .error .duplicate, s, s⟩
    have hOwns := h.owns.concat (e := ⟨i, .insertVersion version, .error .duplicate, s, s⟩)
      (List.Subset.refl _) fun _ _ hEvent => nomatch hEvent
    exact ⟨hConsistent, .refl s, fun _ => Or.inl, .refused hSince h.split hMissing hOther hOwns⟩
  · cases hAnswer.symm.trans (hConsistent.execute_insertVersion h.table hOld)
    have hRecorded : ∀ v ∈ s.recorded ++ [version], v ∈ s.recorded ∨ some version = some v := by
      intro v hMem
      rcases List.mem_append.mp hMem with hBefore | hLast
      · exact Or.inl hBefore
      · exact Or.inr (congrArg some (List.mem_singleton.mp hLast).symm)
    have hGrown : s.Grown
        { s with tables := { s.tables with migrations := some (s.recorded ++ [version]) } } := by
      refine ⟨fun table hTable => ?_, fun v hMem => List.mem_append_left _ hMem⟩
      cases table <;> first | exact hTable | rfl
    refine ⟨hConsistent.insertVersion hOld hNext, hGrown, hRecorded, .underway (h.next hGrown ?_ ?_
      hRecorded)⟩
    · exact List.mem_append_right _ (List.mem_singleton_self version)
    · intro v hEvent
      cases hEvent
      rfl

/-- **A turn of a migration leads to its next stage.** -/
theorem MigrationStage.turn {next : st.Reply → Store.Script (Except Fault Unit)} {r : st.Reply}
    (h : MigrationStage i es s p) (hAsk : p = .ask st next) (hConsistent : s.Consistent)
    (hAnswer : Executes st s r s') : MigrationTurn es ⟨i, st, r, s, s'⟩ (next r) := by
  cases h with
  | started hOwns =>
    rw [Store.Migration.runAll_eq, run_attempt_bind] at hAsk
    cases hAsk
    cases hAnswer.symm.trans (hConsistent.execute_createTable .migrations)
    have hTable : (s.tables.createTable .migrations).hasTable .migrations = true := rfl
    refine ⟨hConsistent.createTable _, Store.grown_createTable s _, fun v hMem => Or.inl ?_,
      .prepared hTable (hOwns.concat (List.Subset.refl _) nofun)⟩
    rwa [Store.recorded_createTable] at hMem
  | prepared hTable hOwns =>
    rw [run_attempt_bind] at hAsk
    cases hAsk
    obtain ⟨version?, done, rest, hExecute, hSplit, hUpgrade, hDone, hMissing⟩ :=
      read_cases hConsistent hTable
    cases hAnswer.symm.trans hExecute
    refine ⟨hConsistent, .refl s, fun _ => Or.inl, ?_⟩
    dsimp only
    rw [hUpgrade]
    -- nothing has happened since the read
    have hUnderway : Underway i (es ++ [⟨i, .selectVersion, .ok version?, s, s⟩]) s [] s done rest := by
      refine ⟨⟨es, version?, rfl⟩, hSplit, hTable, hDone, hMissing, ?_, ?_⟩
      · exact fun v hRest hThere => absurd hThere (hMissing v hRest)
      · exact hOwns.concat (List.nil_subset _) nofun
    exact .underway hUnderway
  | @underway read mid done rest hUnderway =>
    cases rest with
    | nil => cases hAsk
    | cons first rest =>
      have hFirst := hAsk
      rw [attemptAll, run_attempt_bind, Program.ask.injEq] at hFirst
      obtain ⟨rfl, -⟩ := hFirst
      -- the place of a statement tells what was done before it
      rcases Store.Migration.statements_cases hUnderway.split with ⟨table, rfl⟩ | ⟨table, rfl, hMade⟩ |
        ⟨rfl, hMade, -⟩ | ⟨rfl, hMade, hOne, -⟩
      · rw [attemptAll, run_attempt_bind] at hAsk
        cases hAsk
        cases hAnswer.symm.trans (hConsistent.execute_createTable table)
        have hGrown := Store.grown_createTable s table
        have hRecorded : ∀ v ∈ Store.recorded { s with tables := s.tables.createTable table },
            v ∈ s.recorded ∨ none = some v := by
          intro v hMem
          rw [Store.recorded_createTable] at hMem
          exact Or.inl hMem
        exact ⟨hConsistent.createTable table, hGrown, hRecorded, .underway (hUnderway.next hGrown
          (Store.hasTable_createTable _ _) nofun hRecorded)⟩
      · rw [attemptAll, run_attempt_bind] at hAsk
        cases hAsk
        have hTable : s.tables.hasTable table = true := hUnderway.achieved _ hMade
        cases hAnswer.symm.trans (hConsistent.execute_createIndex hTable)
        exact ⟨hConsistent, .refl s, fun _ => Or.inl,
          .underway (hUnderway.next (.refl s) trivial nofun fun _ => Or.inl)⟩
      · have hTable : s.tables.hasTable .locks = true := hUnderway.achieved _ hMade
        exact hUnderway.insertVersion hAsk (Or.inl ⟨rfl, hTable⟩) hConsistent hAnswer
      · have hTable : s.tables.hasTable .properties = true := hUnderway.achieved _ hMade
        have hBefore : 1 ∈ s.recorded := hUnderway.achieved _ hOne
        exact hUnderway.insertVersion hAsk (Or.inr ⟨rfl, hBefore, hTable⟩) hConsistent hAnswer
  | refused => cases hAsk

end Stages

/-! ## Runs -/

section Runs

variable {ι : Type} {i : ι} {es : List (Event ι Statement.Reply Store)} {s s' : Store}
  {ps : ι → Store.Script (Except Fault Unit)}

/-- Everything that is known of a run. -/
structure Migrating {ι : Type} (es : List (Event ι Statement.Reply Store))
    (ps : ι → Store.Script (Except Fault Unit)) (s : Store) : Prop where
  consistent : s.Consistent
  each : ∀ e ∈ es, e.before.Consistent ∧ e.after.Consistent
  stage : ∀ i, MigrationStage i es s (ps i)

namespace Migrating

theorem start (h : s.Consistent) :
    Migrating (ι := ι) [] (fun _ => Store.Migration.runAll.run) s where
  consistent := h
  each := by simp
  stage _ := .started (by simp [Owns])

/-- A turn leads one migration to its next stage, and the others stay where they are. -/
theorem turn [DecidableEq ι] {st : Statement} {next : st.Reply → Store.Script (Except Fault Unit)}
    {r : st.Reply} (h : Migrating es ps s) (hAsk : ps i = .ask st next) (hAnswer : Executes st s r s') :
    Migrating (es ++ [⟨i, st, r, s, s'⟩]) (Function.update ps i (next r)) s' := by
  have hTurn := (h.stage i).turn hAsk h.consistent hAnswer
  refine ⟨hTurn.consistent, ?_, fun j => ?_⟩
  · intro e hMem
    rcases List.mem_append.mp hMem with hOld | hLast
    · exact h.each e hOld
    · rw [List.mem_singleton.mp hLast]
      exact ⟨h.consistent, hTurn.consistent⟩
  · -- only the migration whose turn it was has moved
    by_cases hj : j = i
    · subst hj
      rw [Function.update_self]
      exact hTurn.stage
    · rw [Function.update_of_ne hj]
      exact (h.stage j).beside (Ne.symm hj) hTurn.grown hTurn.recorded

/-- A migration that has succeeded has left everything behind. -/
theorem achieved_of_ok (h : Migrating es ps s) (hDone : ps i = .done (.ok ())) :
    ∀ st ∈ Store.Migration.statements, st.Achieved s := by
  have hStage := h.stage i
  rw [hDone] at hStage
  rcases hStage.done_cases with ⟨-, hAll⟩ | ⟨_, _, _, _, _, _, _, hError, -⟩
  · exact hAll
  · cases hError

/-- A migration is refused only if it inserts a version that another one has recorded since its
read. -/
theorem refused_of_error {fault : Fault} (h : Migrating es ps s) (hDone : ps i = .done (.error fault)) :
    fault = .duplicate ∧ ∃ read then_ mid late done rest v,
      SinceRead i es (mid ++ ⟨i, .insertVersion v, .error .duplicate, then_, then_⟩ :: late) read ∧
      Store.Migration.statements = done ++ .insertVersion v :: rest ∧ v ∉ read.recorded ∧
      RecordedByOther i v mid ∧ Owns i es done := by
  have hStage := h.stage i
  rw [hDone] at hStage
  rcases hStage.done_cases with ⟨hOk, -⟩ | ⟨read, then_, mid, late, done, rest, v, hError, hRefused⟩
  · cases hOk
  · cases hError
    exact ⟨rfl, read, then_, mid, late, done, rest, v, hRefused⟩

/-- The one that has recorded the second version, or the first if nobody has recorded the second,
cannot have been refused. So not all are. -/
theorem exists_ok (h : Migrating es ps s) [hSome : Nonempty ι]
    (hDone : ∀ i, ∃ result, ps i = .done result) : ∃ i, ps i = .done (.ok ()) := by
  by_contra hNone
  have hRefused : ∀ i, ∃ fault, ps i = .done (.error fault) := by
    intro i
    obtain ⟨fault | u, hResult⟩ := hDone i
    · exact ⟨fault, hResult⟩
    · exact absurd ⟨i, hResult⟩ hNone
  -- whoever is refused has been overtaken by somebody with the same version
  have hOvertaken : ∀ i, ∃ done rest v, Store.Migration.statements = done ++ .insertVersion v :: rest ∧
      Owns i es done ∧ ∃ e ∈ es, e.recorded? = some v := by
    intro i
    obtain ⟨fault, hFault⟩ := hRefused i
    obtain ⟨-, read, then_, mid, late, done, rest, v, ⟨early, version?, hEvents⟩, hSplit, -,
      ⟨e, hMem, -, hRecorded⟩, hOwns⟩ := h.refused_of_error hFault
    refine ⟨done, rest, v, hSplit, hOwns, e, ?_, hRecorded⟩
    simp [hEvents, hMem]
  -- nobody has recorded the second version
  have hTwo : ∀ e ∈ es, e.recorded? ≠ some 2 := by
    intro e hMem hRecorded
    obtain ⟨done, rest, v, hSplit, hOwns, -⟩ := hOvertaken e.actor
    exact (Store.Migration.insertVersion_cases hSplit).1 (hOwns e hMem rfl 2 hRecorded)
  -- so everybody is refused at the first one, also the one that has recorded it
  have hOne : ∀ i, ∃ done rest, Store.Migration.statements = done ++ .insertVersion 1 :: rest ∧
      Owns i es done ∧ ∃ e ∈ es, e.recorded? = some 1 := by
    intro i
    obtain ⟨done, rest, v, hSplit, hOwns, e, hMem, hRecorded⟩ := hOvertaken i
    rcases (Store.Migration.insertVersion_cases hSplit).2 with rfl | rfl
    · exact ⟨done, rest, hSplit, hOwns, e, hMem, hRecorded⟩
    · exact absurd hRecorded (hTwo e hMem)
  obtain ⟨-, -, -, -, e, hMem, hRecorded⟩ := hOne hSome.some
  obtain ⟨done, rest, hSplit, hOwns, -⟩ := hOne e.actor
  exact (Store.Migration.fresh_of_split hSplit).1 (hOwns e hMem rfl 1 hRecorded)

end Migrating

theorem migrating_of_run [DecidableEq ι] (hConsistent : s.Consistent)
    (h : Interleaving Executes (fun _ : ι => Store.Migration.runAll.run) s es ps s') :
    Migrating es ps s' :=
  h.invariant (I := fun es ps x => Migrating es ps x) (.start hConsistent)
    fun hMigrating hAsk hAnswer => hMigrating.turn hAsk hAnswer

/-- A run leaves the rows of the tables that are there alone. -/
theorem rows_of_run [DecidableEq ι]
    (h : Interleaving Executes (fun _ : ι => Store.Migration.runAll.run) s es ps s') :
    ∀ e ∈ es, (∀ locks, e.before.tables.locks = some locks → e.after.tables.locks = some locks) ∧
      ∀ properties, e.before.tables.properties = some properties →
        e.after.tables.properties = some properties := by
  intro e hMem
  have hPart : e.question.part? = none :=
    (h.asked (P := fun _ st => st.part? = none) fun _ => Store.Migration.asks_runAll).1 e hMem
  have hExecute : Store.execute e.question e.before = (e.reply, e.after) := h.answered e hMem
  have hKeeps := Store.execute_keeps_rows hPart e.before
  rwa [hExecute] at hKeeps

end Runs

/-! ## Stores that migrations lead to -/

/-- The stores that a new one can become: any number of migrations take turns over it, of which some
are stopped for good, and statements about rows come in between. -/
inductive Store.Migration.Reached : Store → Prop
  | empty : Reached ⟨.empty, false⟩
  | migrations {ι : Type} [DecidableEq ι] {es : List (Event ι Statement.Reply Store)}
      {ps : ι → Store.Script (Except Fault Unit)} {s s' : Store} (h : Reached s)
      (hRun : Interleaving Executes (fun _ : ι => runAll.run) s es ps s') : Reached s'
  | rows {s : Store} {st : Statement} {part : Part} (h : Reached s) (hPart : st.part? = some part) :
      Reached (execute st s).2

theorem Store.Migration.Reached.consistent {s : Store} (h : Reached s) : s.Consistent := by
  induction h with
  | empty => exact .empty
  | migrations _ hRun ih => exact (migrating_of_run ih hRun).consistent
  | rows _ hPart ih => exact ih.after_rows hPart

/-- What the recorded versions say of a store: none is there twice, each is one of the two, and each
has its table and those of the versions before it. -/
structure Store.Layered (s : Store) : Prop where
  nodup : s.recorded.Nodup
  within : ∀ version ∈ s.recorded, version = 1 ∨ version = 2
  one_of_two : 2 ∈ s.recorded → 1 ∈ s.recorded
  locks : 1 ∈ s.recorded → s.tables.locks.isSome = true
  properties : 2 ∈ s.recorded → s.tables.locks.isSome = true ∧ s.tables.properties.isSome = true

namespace Store.Consistent

variable {s : Store}

theorem layered (h : s.Consistent) : s.Layered where
  nodup := h.nodup
  within _ hMem := h.mem_cases hMem
  one_of_two := h.one_of_two
  locks := h.locks
  properties hTwo := ⟨h.locks (h.one_of_two hTwo), h.properties hTwo⟩

/-- A store of the newest version is left as it is. -/
theorem run_newest (h : s.Consistent) (hTwo : 2 ∈ s.recorded) :
    s.run Migration.currentVersion.run = (.ok 2, s) ∧ s.run Migration.runAll.run = (.ok (), s) := by
  have hTable : s.tables.hasTable .migrations = true := by
    cases hMigrations : s.tables.migrations with
    | none => simp [recorded, hMigrations] at hTwo
    | some versions => simp [Tables.hasTable, hMigrations]
  have hMake : execute (.createTable .migrations) s = (.ok (), s) := by
    rw [h.execute_createTable, createTable_of_hasTable hTable]
  have hRead : execute .selectVersion s = (.ok (some 2), s) := by
    obtain ⟨version?, hExecute, ⟨hSame, -⟩ | ⟨hSame, -⟩ | ⟨-, rfl⟩⟩ := h.execute_selectVersion hTable
    · simp [hSame] at hTwo
    · simp [hSame] at hTwo
    · exact hExecute
  constructor
  · rw [Migration.currentVersion, run_attempt_bind, run, Program.run, hMake]
    show Program.run execute (Statement.selectVersion.attempt >>= fun version =>
      pure (Option.getD version 0) : Attempt Int32).run s = _
    rw [run_attempt_bind, Program.run, hRead]
    rfl
  · rw [Migration.runAll_eq, run_attempt_bind, run, Program.run, hMake]
    show Program.run execute (Statement.selectVersion.attempt >>= fun version =>
      Migration.upgrade (Option.getD version 0)).run s = _
    rw [run_attempt_bind, Program.run, hRead]
    rfl

/-- A migration that nobody disturbs brings a store to the newest version. -/
theorem run_runAll (h : s.Consistent) :
    ∃ s', s.run Migration.runAll.run = (.ok (), s') ∧ s'.Consistent ∧ 2 ∈ s'.recorded := by
  obtain ⟨es, hAlone⟩ := exists_alone execute Migration.runAll.run s
  have hMigrating := migrating_of_run h hAlone
  cases hRun : s.run Migration.runAll.run with
  | mk result s' =>
    have hResult : Program.run execute Migration.runAll.run s = (result, s') := hRun
    rw [hResult] at hMigrating
    cases result with
    | ok u =>
      have hTwo : (Statement.insertVersion 2).Achieved s' :=
        hMigrating.achieved_of_ok (i := ()) rfl _ (by decide)
      exact ⟨s', rfl, hMigrating.consistent, hTwo⟩
    | error fault =>
      -- there is no other migration that could have come before it
      obtain ⟨-, -, -, -, -, -, -, -, -, -, -, ⟨e, -, hOther, -⟩, -⟩ :=
        hMigrating.refused_of_error (i := ()) rfl
      exact absurd rfl hOther

end Store.Consistent

/-- **Migrations survive interruption and races.** Any number of them run over one store, statement
by statement and in any order, and each may be stopped for good after any statement; the store is
new, or one that earlier migrations have left behind.

* At every moment a recorded version has its table and those of the versions before it.
* No statement removes or alters a row of a lock or of a property.
* A migration fails only because it inserts a version that another one has recorded since its read.
* If there is at least one migration and all of them end, then one succeeds, and the second version
  is recorded.
* A migration that has succeeded has left both tables and both versions behind.
* A later migration that nobody disturbs succeeds, whatever the others have left behind; then both
  tables are there and the current version is the second. One that finds the second version changes
  nothing. -/
theorem migrations_survive {ι : Type} [DecidableEq ι] {es : List (Event ι Statement.Reply Store)}
    {ps' : ι → Store.Script (Except Fault Unit)} {s s' : Store} (hReached : Store.Migration.Reached s)
    (h : Interleaving Executes (fun _ : ι => Store.Migration.runAll.run) s es ps' s') :
    (s'.Layered ∧ ∀ e ∈ es, e.before.Layered ∧ e.after.Layered) ∧
    (∀ e ∈ es, (∀ locks, e.before.tables.locks = some locks → e.after.tables.locks = some locks) ∧
      ∀ properties, e.before.tables.properties = some properties →
        e.after.tables.properties = some properties) ∧
    (∀ i fault, ps' i = .done (.error fault) →
      fault = .duplicate ∧ ∃ early version? read mid v then_ late,
        es = early ++ ⟨i, .selectVersion, .ok version?, read, read⟩ ::
          (mid ++ ⟨i, .insertVersion v, .error .duplicate, then_, then_⟩ :: late) ∧
        v ∉ read.recorded ∧ ∃ e ∈ mid, e.actor ≠ i ∧ e.recorded? = some v) ∧
    (Nonempty ι → (∀ i, ∃ result, ps' i = .done result) →
      (∃ i, ps' i = .done (.ok ())) ∧ 2 ∈ s'.recorded) ∧
    (∀ i, ps' i = .done (.ok ()) → 1 ∈ s'.recorded ∧ 2 ∈ s'.recorded ∧
      s'.tables.locks.isSome = true ∧ s'.tables.properties.isSome = true) ∧
    (∃ later, s'.run Store.Migration.runAll.run = (.ok (), later) ∧
      later.tables.locks.isSome = true ∧ later.tables.properties.isSome = true ∧
      later.run Store.Migration.currentVersion.run = (.ok 2, later)) ∧
    (2 ∈ s'.recorded → s'.run Store.Migration.runAll.run = (.ok (), s')) := by
  have hMigrating := migrating_of_run hReached.consistent h
  have hConsistent := hMigrating.consistent
  have hSucceeded : ∀ i, ps' i = .done (.ok ()) → 2 ∈ s'.recorded :=
    fun i hOk => hMigrating.achieved_of_ok hOk (.insertVersion 2) (by decide)
  refine ⟨⟨hConsistent.layered, fun e hMem => ?_⟩, rows_of_run h, fun i fault hError => ?_,
    fun hSome hDone => ?_, fun i hOk => ?_, ?_, fun hTwo => (hConsistent.run_newest hTwo).2⟩
  · obtain ⟨hBefore, hAfter⟩ := hMigrating.each e hMem
    exact ⟨hBefore.layered, hAfter.layered⟩
  · obtain ⟨hFault, read, then_, mid, late, -, -, v, ⟨early, version?, hEvents⟩, -, hMissing, hOther,
      -⟩ := hMigrating.refused_of_error hError
    exact ⟨hFault, early, version?, read, mid, v, then_, late, hEvents, hMissing, hOther⟩
  · obtain ⟨i, hOk⟩ := hMigrating.exists_ok hDone
    exact ⟨⟨i, hOk⟩, hSucceeded i hOk⟩
  · have hTwo := hSucceeded i hOk
    obtain ⟨hLocks, hProperties⟩ := hConsistent.layered.properties hTwo
    exact ⟨hConsistent.one_of_two hTwo, hTwo, hLocks, hProperties⟩
  · obtain ⟨later, hRun, hLater, hTwo⟩ := hConsistent.run_runAll
    obtain ⟨hLocks, hProperties⟩ := hLater.layered.properties hTwo
    exact ⟨later, hRun, hLocks, hProperties, (hLater.run_newest hTwo).1⟩

/-! A migration is stopped when it has made its first table, and a lock is stored there. Then two
more migrations read that no version is recorded; the second one is refused, and the first one goes
on. -/

def interrupted : Played (fun _ : Unit => Except Fault Unit) Statement.Reply Store :=
  play (fun (_ : Unit) => Store.execute) [((), ()), ((), ()), ((), ())]
    (fun _ => Store.Migration.runAll.run) ⟨.empty, false⟩

def leftBehind : Store :=
  (Store.execute (.insertLock ⟨"alice", 1, "sms-otp"⟩ (.lockedUntil 5000 none none)) interrupted.state).2

def migrationsInTurn : Played (fun _ : Bool => Except Fault Unit) Statement.Reply Store :=
  play (fun (_ : Unit) => Store.execute)
    [(false, ()), (true, ()), (false, ()), (true, ()), (false, ()), (true, ()), (false, ()),
      (true, ()), (false, ()), (true, ()), (false, ()), (false, ()), (false, ())]
    (fun _ => Store.Migration.runAll.run) leftBehind

theorem migrations_survive_refused :
    Store.Migration.Reached leftBehind ∧ leftBehind.recorded = [] ∧
      migrationsInTurn.programs true = .done (.error .duplicate) ∧
      (∃ i, migrationsInTurn.programs i = .done (.ok ())) ∧
      migrationsInTurn.state.recorded = [1, 2] ∧
      migrationsInTurn.state.lock? ⟨"alice", 1, "sms-otp"⟩ = some (.lockedUntil 5000 none none) ∧
      migrationsInTurn.state.run Store.Migration.runAll.run = (.ok (), migrationsInTurn.state) := by
  have hInterrupted : Store.Migration.Reached interrupted.state :=
    .migrations .empty (interleaving_play (fun _ _ _ => rfl) _ _ _)
  have hReached : Store.Migration.Reached leftBehind := .rows hInterrupted rfl
  have hRun : Interleaving Executes (fun _ : Bool => Store.Migration.runAll.run) leftBehind
      migrationsInTurn.events migrationsInTurn.programs migrationsInTurn.state :=
    interleaving_play (fun _ _ _ => rfl) _ _ _
  have hFirst : migrationsInTurn.programs false = .done (.ok ()) := by rfl
  have hSecond : migrationsInTurn.programs true = .done (.error .duplicate) := by rfl
  obtain ⟨-, -, -, hEnd, -, -, hAgain⟩ := migrations_survive hReached hRun
  have hEnded : ∀ i, ∃ result, migrationsInTurn.programs i = .done result := by
    intro i
    cases i with
    | false => exact ⟨_, hFirst⟩
    | true => exact ⟨_, hSecond⟩
  obtain ⟨hOk, hTwo⟩ := hEnd ⟨false⟩ hEnded
  exact ⟨hReached, by rfl, hSecond, hOk, by rfl, by rfl, hAgain hTwo⟩

end Latch
