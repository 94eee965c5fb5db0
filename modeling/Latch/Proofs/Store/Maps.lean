import Latch.Proofs.Properties.MergeStatements
import Latch.Proofs.Store.Ready

/-!
# The store as two maps

Rows are a detail of the store. To its callers it is two finite maps: from keys to locks, and from
keys and names to values. Every record call is answered as these maps answer it, batches included
that stop halfway, because no call ever leaves two rows of one key in a table.

* `Maps` — the two maps; `Store.maps` — those that a store holds;
* `Maps.Answers` — how maps answer a call, and what they are after it;
* `Maps.Run` — calls one after another on maps; `Store.performAll` — the same on a store;
* `Store.Table.RowsApart` — no two rows of a table have the same identifier, now and later;
* `Store.Usable` — what every call needs and keeps.

Main results:

* `Store.PropertiesReady.run_addAll` … `Store.PropertiesReady.run_deleteAll` — what batches do to
  the map of a key;
* `Store.Usable.perform` — one call is answered as the maps answer it;
* `rows_refine_maps` — so is a run of calls on a new store, whose rows stay apart.
-/

namespace Latch

/-! ## Maps and their answers -/

/-- What is stored, without rows. -/
structure Maps where
  locks : Key → Option Lock
  properties : Key → String → Option String

namespace Maps

def empty : Maps := ⟨fun _ => none, fun _ _ => none⟩

/-- Other locks for a key. -/
def setLock (m : Maps) (key : Key) (lock : Option Lock) : Maps :=
  { m with locks := Function.update m.locks key lock }

/-- Other properties for a key. -/
def setProperties (m : Maps) (key : Key) (map : String → Option String) : Maps :=
  { m with properties := Function.update m.properties key map }

/-- How maps answer a call, and what they are after it. -/
inductive Answers : (call : RecordCall) → Maps → call.Reply → Maps → Prop
  | getLock (key : Key) (m : Maps) : Answers (.getLock key) m (.ok (m.locks key)) m
  | insertLock {key : Key} {m : Maps} (lock : Lock) (hNew : m.locks key = none) :
      Answers (.insertLock key lock) m (.ok ()) (m.setLock key (some lock))
  | refuseLock {key : Key} {m : Maps} (lock : Lock) (hOld : m.locks key ≠ none) :
      Answers (.insertLock key lock) m (.error (.record (.insertLock key lock) .uniqueViolation)) m
  /-- A key without a lock stays without one. -/
  | updateLock (key : Key) (lock : Lock) (m : Maps) :
      Answers (.updateLock key lock) m (.ok ()) (m.setLock key ((m.locks key).map fun _ => lock))
  | deleteLock (key : Key) (m : Maps) : Answers (.deleteLock key) m (.ok ()) (m.setLock key none)
  /-- The answer tells whether there was a lock that had expired. -/
  | deleteExpiredLock (key : Key) (now : Millis) (m : Maps) :
      Answers (.deleteExpiredLock key now) m (.ok ((m.locks key).any (·.isExpiredAt now)))
        (m.setLock key ((m.locks key).filter fun lock => !lock.isExpiredAt now))
  | getProperties {key : Key} {m : Maps} (all : Properties) (hAll : all.get? = m.properties key) :
      Answers (.getProperties key) m (.ok all) m
  | getProperty (key : Key) (name : String) (m : Maps) :
      Answers (.getProperty key name) m (.ok (m.properties key name)) m
  /-- All names are new. -/
  | addProperties {key : Key} {incoming : Properties} {m : Maps}
      (hNew : ∀ name, incoming.get? name ≠ none → m.properties key name = none) :
      Answers (.addProperties key incoming) m (.ok ())
        (m.setProperties key (overridden incoming (m.properties key)))
  /-- The first name that is there refuses the batch; those before it have been added. -/
  | refuseProperties {key : Key} {incoming : Properties} {m : Maps} {name value : String}
      {early late : List (String × String)}
      (hSplit : incoming.inOrder = early ++ (name, value) :: late)
      (hNew : ∀ e ∈ early, m.properties key e.1 = none) (hOld : m.properties key name ≠ none) :
      Answers (.addProperties key incoming) m
        (.error (.record (.addProperty key name) .uniqueViolation))
        (m.setProperties key (overlay (m.properties key) early))
  /-- Names that are not there stay so. -/
  | updateProperties (key : Key) (incoming : Properties) (m : Maps) :
      Answers (.updateProperties key incoming) m (.ok ())
        (m.setProperties key fun name =>
          (m.properties key name).map fun old => (incoming.get? name).getD old)
  | deleteProperties (key : Key) (names : List String) (m : Maps) :
      Answers (.deleteProperties key names) m (.ok ())
        (m.setProperties key fun name => if name ∈ names then none else m.properties key name)
  | deleteAllProperties (key : Key) (m : Maps) :
      Answers (.deleteAllProperties key) m (.ok ()) (m.setProperties key fun _ => none)

/-- Calls one after another on maps, with their answers. -/
inductive Run : Maps → List ((call : RecordCall) × call.Reply) → Maps → Prop
  | done (m : Maps) : Run m [] m
  | next {call : RecordCall} {m m₁ m' : Maps} {reply : call.Reply}
      {rest : List ((call : RecordCall) × call.Reply)} (hAnswer : Answers call m reply m₁)
      (hRest : Run m₁ rest m') : Run m (⟨call, reply⟩ :: rest) m'

end Maps

namespace Store

/-- The maps that a store holds. -/
def maps (s : Store) : Maps := ⟨s.lock?, s.property?⟩

/-- Carries out calls one after another. -/
def performAll : List RecordCall → Store → List ((call : RecordCall) × call.Reply) × Store
  | [], s => ([], s)
  | call :: rest, s =>
    let (reply, s) := s.perform call
    let (answers, s) := performAll rest s
    (⟨call, reply⟩ :: answers, s)

/-! ## Rows -/

/-- No two rows have the same identifier, and no row has one that is still to be given. -/
structure Table.RowsApart {κ α : Type} (t : Table κ α) : Prop where
  apart : t.rows.Pairwise fun a b => a.id ≠ b.id
  below : ∀ row ∈ t.rows, row.id < t.nextId

namespace Table.RowsApart

variable {κ α : Type} {t t' : Table κ α}

theorem empty : (Table.empty : Table κ α).RowsApart :=
  ⟨List.Pairwise.nil, fun _ hRow => nomatch hRow⟩

theorem deleteWhere (h : t.RowsApart) (test : κ → α → Bool) : (t.deleteWhere test).RowsApart :=
  ⟨h.apart.filter _, fun row hRow => h.below row (List.mem_filter.mp hRow).1⟩

/-- Rows that are apart differ in their keys and in their identifiers. -/
theorem pairwise_rows (h : t.RowsApart) :
    t.rows.Pairwise fun a b => a.key ≠ b.key ∧ a.id ≠ b.id :=
  (List.pairwise_map.mp t.nodup).imp₂ (fun _ _ hKey hId => ⟨hKey, hId⟩) h.apart

variable [DecidableEq κ]

theorem insert {key : κ} {value : α} (h : t.RowsApart) (hInsert : t.insert? key value = some t') :
    t'.RowsApart := by
  unfold Table.insert? at hInsert
  split at hInsert
  · cases hInsert
  · cases hInsert
    refine ⟨List.pairwise_append.mpr ⟨h.apart, List.pairwise_singleton _ _, ?_⟩, ?_⟩
    · -- the new row has an identifier above all others
      intro row hRow new hNew
      have hBelow := h.below row hRow
      rw [List.mem_singleton] at hNew
      rw [hNew]
      exact Nat.ne_of_lt hBelow
    · intro row hRow
      rcases List.mem_append.mp hRow with hOld | hNew
      · exact Nat.lt_succ_of_lt (h.below row hOld)
      · rw [List.mem_singleton] at hNew
        rw [hNew]
        exact Nat.lt_succ_self _

theorem id_overwrite (key : κ) (value : α) (row : Row κ α) : (overwrite key value row).id = row.id := by
  unfold overwrite
  split <;> rfl

theorem update (h : t.RowsApart) (key : κ) (value : α) : (t.update key value).RowsApart := by
  refine ⟨?_, ?_⟩
  · rw [Table.update, List.pairwise_map]
    refine h.apart.imp fun hNe => ?_
    rwa [id_overwrite, id_overwrite]
  · intro row hRow
    obtain ⟨old, hOld, rfl⟩ := List.mem_map.mp hRow
    rw [id_overwrite]
    exact h.below old hOld

/-- Rows stay apart in whatever way they change. -/
theorem change {touched : κ → Prop} {t? t'? : Option (Table κ α)}
    (h : ∀ t, t? = some t → t.RowsApart) (hChange : Change touched t? t'?) :
    ∀ t', t'? = some t' → t'.RowsApart := by
  intro t' hAfter
  cases hChange with
  | create =>
    cases hAfter
    exact .empty
  | insert _ hInsert =>
    cases hAfter
    exact (h _ rfl).insert hInsert
  | update t value _ =>
    cases hAfter
    exact (h t rfl).update _ value
  | delete t _ =>
    cases hAfter
    exact (h t rfl).deleteWhere _

end Table.RowsApart

/-- A store on which no call fails of itself, and whose rows are apart. -/
structure Usable (s : Store) : Prop where
  ready : s.Ready
  propertiesReady : s.PropertiesReady
  lockRows : ∀ locks, s.tables.locks = some locks → locks.RowsApart
  propertyRows : ∀ properties, s.tables.properties = some properties → properties.RowsApart

/-- No statement makes a store unusable. -/
theorem Usable.after_execute {s : Store} (h : s.Usable) (st : Statement) :
    (execute st s).2.Usable := by
  obtain ⟨-, hTables⟩ := execute_keeps st s
  -- a table is as it was, or its rows have changed in one of the ways that tables have
  refine ⟨h.ready.after_execute st, h.propertiesReady.after_execute st, ?_, ?_⟩
  · rcases hTables.locks with hSame | ⟨-, hChange⟩
    · rw [hSame]
      exact h.lockRows
    · exact Table.RowsApart.change h.lockRows hChange
  · rcases hTables.properties with hSame | ⟨-, hChange⟩
    · rw [hSame]
      exact h.propertyRows
    · exact Table.RowsApart.change h.propertyRows hChange

theorem Usable.after_run {α : Type} {s : Store} (h : s.Usable) (p : Script α) : (s.run p).2.Usable :=
  (Program.Asks.of_forall (P := fun _ => True) (fun _ => trivial) p).run_keeps
    (fun st _ _ hs => hs.after_execute st) h

theorem usable_migrated : migrated.Usable := by
  have hLocks : migrated.tables.locks = some .empty := rfl
  have hProperties : migrated.tables.properties = some .empty := rfl
  refine ⟨⟨rfl, rfl, fun _ => rfl⟩, ⟨rfl, rfl, fun _ _ => rfl⟩, ?_, ?_⟩
  · intro locks hSame
    rw [hLocks] at hSame
    cases hSame
    exact .empty
  · intro properties hSame
    rw [hProperties] at hSame
    cases hSame
    exact .empty

/-! ## Batches -/

/-- What an attempt does that begins with a statement that succeeds. -/
theorem run_statement_bind_ok {α : Type} (failed : Failed) {st : Statement} {s s₁ : Store}
    {result : st.Result} (f : st.Result → RecordCall.Attempt α)
    (h : execute st s = (.ok result, s₁)) :
    s.run (RecordCall.statement failed st >>= f).run = s₁.run (f result).run := by
  rw [run, run_statement_bind, Program.run, h]
  rfl

theorem run_statement_bind_error {α : Type} (failed : Failed) {st : Statement} {s s₁ : Store}
    {fault : Fault} (f : st.Result → RecordCall.Attempt α)
    (h : execute st s = (.error fault, s₁)) :
    s.run (RecordCall.statement failed st >>= f).run =
      (.error (.record failed fault.cause), s₁) := by
  rw [run, run_statement_bind, Program.run, h]
  rfl

namespace PropertiesReady

variable {s : Store} {entries : List (String × String)}

/-- A batch of new names adds them all, or stops at the first name that is there. -/
theorem run_addAll (h : s.PropertiesReady) (key : Key) (hNames : (entries.map Prod.fst).Nodup) :
    ((∀ e ∈ entries, s.property? key e.1 = none) ∧
      ∃ s', s.run (RecordCall.addAll key entries).run = (.ok (), s') ∧ Overlaid key entries s s') ∨
    ∃ early name value late s', entries = early ++ (name, value) :: late ∧
      (∀ e ∈ early, s.property? key e.1 = none) ∧ s.property? key name ≠ none ∧
      s.run (RecordCall.addAll key entries).run =
        (.error (.record (.addProperty key name) .uniqueViolation), s') ∧
      Overlaid key early s s' := by
  induction entries generalizing s with
  | nil => exact Or.inl ⟨by simp, s, rfl, .refl key s⟩
  | cons entry rest ih =>
    obtain ⟨name, value⟩ := entry
    rw [List.map_cons, List.nodup_cons] at hNames
    by_cases hNew : s.property? key name = none
    · obtain ⟨s₁, hExecute, hReady⟩ := h.execute_insertProperty value hNew
      have hFirst : Overlaid key [(name, value)] s s₁ := (Store.execute_insertProperty hExecute).2
      -- the names that follow are other names, so they are there or not as before
      have hSame : ∀ e ∈ rest, s₁.property? key e.1 = s.property? key e.1 := by
        intro e he
        have hOther : e.1 ≠ name := fun hEq => hNames.1 (List.mem_map.mpr ⟨e, he, hEq⟩)
        rw [hFirst.at_key]
        exact Function.update_of_ne hOther _ _
      have hRun := run_statement_bind_ok (.addProperty key name)
        (fun _ => RecordCall.addAll key rest) hExecute
      rcases ih hReady hNames.2 with ⟨hAll, s', hRest, hRows⟩ |
        ⟨early, last, text, late, s', hSplit, hEarly, hOld, hRest, hRows⟩
      · refine Or.inl ⟨?_, s', hRun.trans hRest, hFirst.append hRows⟩
        intro e he
        rcases List.mem_cons.mp he with rfl | he
        · exact hNew
        · exact (hSame e he).symm.trans (hAll e he)
      · refine Or.inr ⟨(name, value) :: early, last, text, late, s', by rw [hSplit]; rfl, ?_, ?_,
          hRun.trans hRest, hFirst.append hRows⟩
        · intro e he
          rcases List.mem_cons.mp he with rfl | he
          · exact hNew
          · have hMem : e ∈ rest := by
              rw [hSplit]
              exact List.mem_append_left _ he
            exact (hSame e hMem).symm.trans (hEarly e he)
        · rwa [← hSame (last, text) (by rw [hSplit]; simp)]
    · have hExecute := h.execute_insertProperty_duplicate value hNew
      have hRun := run_statement_bind_error (.addProperty key name)
        (fun _ => RecordCall.addAll key rest) hExecute
      exact Or.inr ⟨[], name, value, rest, s, rfl, by simp, hNew, hRun, .refl key s⟩

/-- A batch of updates gives new values to the names that are there. -/
theorem run_updateAll (h : s.PropertiesReady) (key : Key) (hNames : (entries.map Prod.fst).Nodup) :
    ∃ s', s.run (RecordCall.updateAll key entries).run = (.ok (), s') ∧
      s'.property? = Function.update s.property? key fun name =>
        (s.property? key name).map fun old => (entries.lookup name).getD old := by
  induction entries generalizing s with
  | nil =>
    refine ⟨s, rfl, ?_⟩
    have hSame : (fun name => (s.property? key name).map fun old =>
        (([] : List (String × String)).lookup name).getD old) = s.property? key := by
      funext name
      cases s.property? key name <;> rfl
    rw [hSame, Function.update_eq_self]
  | cons entry rest ih =>
    obtain ⟨name, value⟩ := entry
    rw [List.map_cons, List.nodup_cons] at hNames
    obtain ⟨s₁, hExecute, hReady⟩ := h.execute_updateProperty key name value
    obtain ⟨s', hRest, hRows⟩ := ih hReady hNames.2
    refine ⟨s', (run_statement_bind_ok _ _ hExecute).trans hRest, ?_⟩
    rw [hRows, Store.execute_updateProperty hExecute, Function.update_idem, Function.update_self]
    refine congrArg (Function.update s.property? key) (funext fun n => ?_)
    by_cases hn : n = name
    · subst hn
      -- the name does not come again in the batch
      have hLast : rest.lookup n = none := by
        rw [List.lookup_eq_none_iff]
        intro e he
        have hOther : n ≠ e.1 := fun hEq => hNames.1 (List.mem_map.mpr ⟨e, he, hEq.symm⟩)
        simpa using hOther
      rw [Function.update_self, hLast, List.lookup_cons_self, Option.map_map]
      rfl
    · have hOther : (n == name) = false := by simpa using hn
      rw [Function.update_of_ne hn, List.lookup_cons, hOther]

theorem run_deleteAll (h : s.PropertiesReady) (key : Key) (names : List String) :
    ∃ s', s.run (RecordCall.deleteAll key names).run = (.ok (), s') ∧
      s'.property? = Function.update s.property? key fun name =>
        if name ∈ names then none else s.property? key name := by
  induction names generalizing s with
  | nil => exact ⟨s, rfl, by simp⟩
  | cons name rest ih =>
    obtain ⟨s₁, hExecute⟩ := h.execute_deleteProperty key name
    have hReady : s₁.PropertiesReady := by
      have hAfter := h.after_execute (.deleteProperty key name)
      rwa [hExecute] at hAfter
    obtain ⟨s', hRest, hRows⟩ := ih hReady
    refine ⟨s', (run_statement_bind_ok _ _ hExecute).trans hRest, ?_⟩
    rw [hRows, Store.execute_deleteProperty hExecute, Function.update_idem, Function.update_self]
    refine congrArg (Function.update s.property? key) (funext fun n => ?_)
    by_cases hn : n = name
    · simp [hn]
    · simp [hn]

end PropertiesReady

/-! ## Calls -/

theorem property?_execute {s : Store} {st : Statement} (hOther : st.table? ≠ some .properties) :
    (execute st s).2.property? = s.property? := by
  obtain ⟨-, hTables⟩ := execute_keeps st s
  rcases hTables.properties with hSame | ⟨hTable, -⟩
  · funext key name
    unfold property?
    rw [hSame]
  · exact absurd hTable hOther

theorem run_statement_snd (failed : Failed) (st : Statement) (s : Store) :
    (s.run (RecordCall.statement failed st).run).2 = (execute st s).2 := by
  cases hExecute : execute st s with
  | mk reply s' =>
    cases reply with
    | ok result => rw [run_statement hExecute]
    | error fault => rw [run_statement_error hExecute]

/-- A call about a lock is one statement about the table of locks. -/
theorem property?_perform {s : Store} {call : RecordCall} (hAbout : call.isAboutLock = true) :
    (s.perform call).2.property? = s.property? := by
  have hStatement : ∀ failed (st : Statement), st.table? ≠ some .properties →
      (s.run (RecordCall.statement failed st).run).2.property? = s.property? := by
    intro failed st hOther
    rw [run_statement_snd]
    exact property?_execute hOther
  cases call with
  | getLock | insertLock | updateLock | deleteLock | deleteExpiredLock =>
    exact hStatement _ _ (by simp [Statement.table?])
  | _ => simp [RecordCall.isAboutLock] at hAbout

theorem maps_of_locks {s s' : Store} {call : RecordCall} {reply : call.Reply} {key : Key}
    {lock : Option Lock} (hAbout : call.isAboutLock = true) (hPerform : s.perform call = (reply, s'))
    (hRows : s'.lock? = Function.update s.lock? key lock) : s'.maps = s.maps.setLock key lock := by
  have hSame : s'.property? = s.property? := by
    have hPerformed := property?_perform (s := s) hAbout
    rwa [hPerform] at hPerformed
  simp only [maps, Maps.setLock, hRows, hSame]

theorem maps_of_properties {s s' : Store} {call : RecordCall} {reply : call.Reply} {key : Key}
    {map : String → Option String} (hAbout : call.isAboutLock = false)
    (hPerform : s.perform call = (reply, s'))
    (hRows : s'.property? = Function.update s.property? key map) :
    s'.maps = s.maps.setProperties key map := by
  have hSame : s'.lock? = s.lock? := (RecordCall.Partly.of_perform hPerform).lock?_eq hAbout
  simp only [maps, Maps.setProperties, hRows, hSame]

/-- All entries of a key are collected, each row once. -/
theorem PropertiesReady.perform_getProperties {s : Store} {properties : PropertyTable}
    (h : s.PropertiesReady) (hProperties : s.tables.properties = some properties) (key : Key) :
    s.perform (.getProperties key) =
      (.ok (Properties.ofList (Tables.propertiesOf properties key)), s) := by
  have hExecute : execute (.selectProperties key) s =
      (.ok (Tables.propertiesOf properties key), s) := by
    refine execute_eq_ok h.isOpen ?_
    simp [Tables.execute, hProperties]
  rw [perform, RecordCall.script, map_eq_pure_bind]
  exact run_statement_bind_ok _ _ hExecute

theorem lookup_inOrder (p : Properties) (name : String) : p.inOrder.lookup name = p.get? name := by
  apply Option.ext
  intro value
  rw [Properties.lookup_eq_some_iff p.nodup_inOrder, Properties.mem_inOrder]

namespace Usable

variable {s : Store}

/-- What was there decides whether a lock can be inserted. -/
theorem perform_insertLock (h : s.Usable) (key : Key) (lock : Lock) :
    Maps.Answers (.insertLock key lock) s.maps (s.perform (.insertLock key lock)).1
      (s.perform (.insertLock key lock)).2.maps := by
  by_cases hNew : s.lock? key = none
  · obtain ⟨s', hPerform, -, hRows⟩ := h.ready.perform_insertLock lock hNew
    rw [hPerform, maps_of_locks rfl hPerform hRows]
    exact .insertLock lock hNew
  · rw [h.ready.perform_insertLock_duplicate lock hNew]
    exact .refuseLock lock hNew

theorem perform_deleteExpiredLock (h : s.Usable) (key : Key) (now : Millis) :
    Maps.Answers (.deleteExpiredLock key now) s.maps (s.perform (.deleteExpiredLock key now)).1
      (s.perform (.deleteExpiredLock key now)).2.maps := by
  obtain ⟨found, s', hExecute, -⟩ := h.ready.execute_deleteExpiredLock key now
  have hPerform : s.perform (.deleteExpiredLock key now) = (.ok found, s') := run_statement hExecute
  obtain ⟨hFound, hRows⟩ := execute_deleteExpiredLock hExecute
  rw [hPerform, maps_of_locks rfl hPerform hRows, hFound]
  exact .deleteExpiredLock key now s.maps

theorem perform_addProperties (h : s.Usable) (key : Key) (incoming : Properties) :
    Maps.Answers (.addProperties key incoming) s.maps (s.perform (.addProperties key incoming)).1
      (s.perform (.addProperties key incoming)).2.maps := by
  rcases h.propertiesReady.run_addAll key incoming.nodup_inOrder with
    ⟨hNew, s', hRun, hRows⟩ | ⟨early, name, value, late, s', hSplit, hNew, hOld, hRun, hRows⟩
  · have hPerform : s.perform (.addProperties key incoming) = (.ok (), s') := hRun
    rw [Overlaid, overlay_inOrder] at hRows
    rw [hPerform, maps_of_properties rfl hPerform hRows]
    refine .addProperties fun name hName => ?_
    obtain ⟨value, hValue⟩ := Option.ne_none_iff_exists'.mp hName
    exact hNew (name, value) (Properties.mem_inOrder.mpr hValue)
  · have hPerform : s.perform (.addProperties key incoming) =
      (.error (.record (.addProperty key name) .uniqueViolation), s') := hRun
    rw [hPerform, maps_of_properties rfl hPerform hRows]
    exact .refuseProperties hSplit hNew hOld

theorem perform_updateProperties (h : s.Usable) (key : Key) (incoming : Properties) :
    Maps.Answers (.updateProperties key incoming) s.maps
      (s.perform (.updateProperties key incoming)).1
      (s.perform (.updateProperties key incoming)).2.maps := by
  obtain ⟨s', hRun, hRows⟩ := h.propertiesReady.run_updateAll key incoming.nodup_inOrder
  have hPerform : s.perform (.updateProperties key incoming) = (.ok (), s') := hRun
  simp only [lookup_inOrder] at hRows
  rw [hPerform, maps_of_properties rfl hPerform hRows]
  exact .updateProperties key incoming s.maps

/-- **One call on a usable store** is answered as the maps of the store answer it. -/
theorem perform (h : s.Usable) (call : RecordCall) :
    Maps.Answers call s.maps (s.perform call).1 (s.perform call).2.maps := by
  cases call with
  | getLock key =>
    rw [h.ready.perform_getLock key]
    exact .getLock key s.maps
  | insertLock key lock => exact h.perform_insertLock key lock
  | updateLock key lock =>
    obtain ⟨s', hPerform, -, hRows⟩ := h.ready.perform_updateLock_map key lock
    rw [hPerform, maps_of_locks rfl hPerform hRows]
    exact .updateLock key lock s.maps
  | deleteLock key =>
    obtain ⟨s', hPerform, -, hRows⟩ := h.ready.perform_deleteLock key
    rw [hPerform, maps_of_locks rfl hPerform hRows]
    exact .deleteLock key s.maps
  | deleteExpiredLock key now => exact h.perform_deleteExpiredLock key now
  | getProperties key =>
    obtain ⟨properties, hProperties⟩ := h.propertiesReady.exists_properties
    rw [h.propertiesReady.perform_getProperties hProperties key]
    refine .getProperties _ (funext fun name => ?_)
    rw [get?_ofList_propertiesOf]
    exact (property?_of_table hProperties key name).symm
  | getProperty key name =>
    have hPerform : s.perform (.getProperty key name) = (.ok (s.property? key name), s) :=
      run_statement (h.propertiesReady.execute_selectProperty key name)
    rw [hPerform]
    exact .getProperty key name s.maps
  | addProperties key incoming => exact h.perform_addProperties key incoming
  | updateProperties key incoming => exact h.perform_updateProperties key incoming
  | deleteProperties key names =>
    obtain ⟨s', hRun, hRows⟩ := h.propertiesReady.run_deleteAll key names
    have hPerform : s.perform (.deleteProperties key names) = (.ok (), s') := hRun
    rw [hPerform, maps_of_properties rfl hPerform hRows]
    exact .deleteProperties key names s.maps
  | deleteAllProperties key =>
    obtain ⟨s', hExecute⟩ := h.propertiesReady.execute_deleteProperties key
    have hPerform : s.perform (.deleteAllProperties key) = (.ok (), s') := run_statement hExecute
    rw [hPerform, maps_of_properties rfl hPerform (execute_deleteProperties hExecute)]
    exact .deleteAllProperties key s.maps

/-- Calls one after another are answered as the maps answer them, and the store stays usable. -/
theorem performAll (h : s.Usable) (calls : List RecordCall) :
    Maps.Run s.maps (performAll calls s).1 (performAll calls s).2.maps ∧
      (performAll calls s).2.Usable := by
  induction calls generalizing s with
  | nil => exact ⟨.done s.maps, h⟩
  | cons call rest ih =>
    obtain ⟨hRest, hUsable⟩ := ih (h.after_run call.script.run)
    exact ⟨.next (h.perform call) hRest, hUsable⟩

end Usable

end Store

/-! ## A new store -/

/-- **The rows of a store refine two maps.** Whatever calls are made on a new store, one after
another, they are answered as maps that are empty at first answer them, and the maps of the store
are theirs afterwards. No two rows share a key or an identifier; all properties of a key are read
with none of its rows lost, and one property is read as all are. -/
theorem rows_refine_maps (calls : List RecordCall) :
    ∃ answers s locks properties, Store.performAll calls .migrated = (answers, s) ∧
      Maps.Run .empty answers s.maps ∧
      s.tables.locks = some locks ∧ locks.rows.Pairwise (fun a b => a.key ≠ b.key ∧ a.id ≠ b.id) ∧
      s.tables.properties = some properties ∧
      properties.rows.Pairwise (fun a b => a.key ≠ b.key ∧ a.id ≠ b.id) ∧
      ∀ key, ∃ all, s.perform (.getProperties key) = (.ok all, s) ∧
        all.entries = (properties.rows.filter (·.key.1 = key)).map (fun row => (row.key.2, row.value)) ∧
        ∀ name, s.perform (.getProperty key name) = (.ok (all.get? name), s) := by
  obtain ⟨hRun, hUsable⟩ := Store.usable_migrated.performAll calls
  obtain ⟨locks, hLocks⟩ := hUsable.ready.exists_locks
  obtain ⟨properties, hProperties⟩ := hUsable.propertiesReady.exists_properties
  have hEmpty : Store.migrated.maps = .empty := rfl
  rw [hEmpty] at hRun
  refine ⟨_, _, locks, properties, rfl, hRun, hLocks, (hUsable.lockRows _ hLocks).pairwise_rows,
    hProperties, (hUsable.propertyRows _ hProperties).pairwise_rows, fun key => ?_⟩
  refine ⟨_, hUsable.propertiesReady.perform_getProperties hProperties key, ?_, fun name => ?_⟩
  · rw [Properties.entries_ofList (Store.nodup_propertiesOf properties key)]
    exact Store.propertiesOf_eq properties key
  · rw [Store.get?_ofList_propertiesOf, ← Store.property?_of_table hProperties]
    exact Store.run_statement (hUsable.propertiesReady.execute_selectProperty key name)

end Latch
