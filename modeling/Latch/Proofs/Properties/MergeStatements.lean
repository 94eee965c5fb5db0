import Latch.Proofs.Manager.Statements
import Latch.Proofs.Properties.Overlay
import Latch.Proofs.Store.PropertyRows

/-!
# A merge of properties, statement by statement

A request to set properties reads what is stored and then writes one name after another: first the
names that are new, then the others, each part in byte order. Here these writes are a list, so that a
request can be cut off, or taken turns with, between any two of them.

* `PropertyWrite` — one write of a merge; `mergeWrites` — all of them, in order;
* `writeAll` — carries out one write after another;
* `Store.Overlaid` — entries have been written over the properties of one key.

Main results:

* `attempt_setProperties` — the statements of a request to set properties;
* `overlay_mergeWrites` — all writes together override the map;
* `Store.PropertiesReady.execute_write` — on a ready store a write fails only if its name is there.
-/

namespace Latch

open RecordCall (Attempt)

/-! ## The writes of a merge -/

/-- One write of a merge. -/
inductive PropertyWrite where
  | add (name value : String)
  | update (name value : String)
deriving DecidableEq

namespace PropertyWrite

def entry : PropertyWrite → String × String
  | add name value | update name value => (name, value)

def statement (key : Key) : PropertyWrite → Store.Statement
  | add name value => .insertProperty key name value
  | update name value => .updateProperty key name value

/-- What could not be done if the write fails. -/
def failed (key : Key) : PropertyWrite → Failed
  | add name _ => .addProperty key name
  | update name _ => .updateProperty key name

/-- The write is the one for a name that is new, or for one that is there, as a map has it. -/
def Fits (map : String → Option String) : PropertyWrite → Prop
  | add name _ => map name = none
  | update name _ => map name ≠ none

/-- A write fits as long as its own name is not written. -/
theorem Fits.update {map : String → Option String} {w : PropertyWrite} {name : String}
    (h : w.Fits map) (hOther : w.entry.1 ≠ name) (value : Option String) :
    w.Fits (Function.update map name value) := by
  cases w with
  | add own text =>
    have hSame : Function.update map name value own = map own := Function.update_of_ne hOther value map
    exact hSame.trans h
  | update own text =>
    have hSame : Function.update map name value own = map own := Function.update_of_ne hOther value map
    exact fun hNone => h (hSame.symm.trans hNone)

/-- A name that is updated is there. -/
theorem Fits.there {map : String → Option String} {w : PropertyWrite} (h : w.Fits map)
    (name value : String) (hw : w = .update name value) : map name ≠ none := by
  subst hw
  exact h

end PropertyWrite

/-- Carries out one write after another and stops at the first that fails. -/
def writeAll (key : Key) : List PropertyWrite → Attempt Unit
  | [] => pure ()
  | w :: rest => do
    let _ ← RecordCall.statement (w.failed key) (w.statement key)
    writeAll key rest

/-- The writes that a merge makes when a map is stored. -/
def mergeWrites (incoming : Properties) (stored : String → Option String) : List PropertyWrite :=
  (incoming.filter fun name => (stored name).isNone).inOrder.map (fun e => .add e.1 e.2) ++
    (incoming.filter fun name => (stored name).isSome).inOrder.map (fun e => .update e.1 e.2)

section Writes

variable {incoming : Properties} {stored : String → Option String} {name value : String}

theorem mem_inOrder_filter {keep : String → Bool} :
    (name, value) ∈ (incoming.filter keep).inOrder ↔
      keep name = true ∧ incoming.get? name = some value := by
  rw [Properties.mem_inOrder, Properties.get?_filter]
  by_cases hKeep : keep name = true <;> simp [hKeep]

theorem keep_of_mem_names {keep : String → Bool}
    (h : name ∈ (incoming.filter keep).inOrder.map Prod.fst) : keep name = true := by
  obtain ⟨⟨_, text⟩, hMem, rfl⟩ := List.mem_map.mp h
  exact (mem_inOrder_filter.mp hMem).1

theorem entries_mergeWrites (incoming : Properties) (stored : String → Option String) :
    (mergeWrites incoming stored).map PropertyWrite.entry =
      (incoming.filter fun name => (stored name).isNone).inOrder ++
        (incoming.filter fun name => (stored name).isSome).inOrder := by
  simp [mergeWrites, PropertyWrite.entry, Function.comp_def]

/-- The writes are the entries of the set. -/
theorem mem_entries_mergeWrites :
    (name, value) ∈ (mergeWrites incoming stored).map PropertyWrite.entry ↔
      incoming.get? name = some value := by
  rw [entries_mergeWrites, List.mem_append, mem_inOrder_filter, mem_inOrder_filter]
  cases stored name <;> simp

theorem overlay_mergeWrites (map : String → Option String) :
    overlay map ((mergeWrites incoming stored).map PropertyWrite.entry) = overridden incoming map :=
  overlay_eq_overridden fun _ _ => mem_entries_mergeWrites

/-- No name is written twice. -/
theorem nodup_mergeWrites (incoming : Properties) (stored : String → Option String) :
    ((mergeWrites incoming stored).map fun w => w.entry.1).Nodup := by
  have hSplit : (mergeWrites incoming stored).map (fun w => w.entry.1) =
      (incoming.filter fun name => (stored name).isNone).inOrder.map Prod.fst ++
        (incoming.filter fun name => (stored name).isSome).inOrder.map Prod.fst := by
    rw [← List.map_append, ← entries_mergeWrites, List.map_map]
    rfl
  rw [hSplit]
  refine List.nodup_append.mpr ⟨Properties.nodup_inOrder _, Properties.nodup_inOrder _, ?_⟩
  -- no name is both new and there
  rintro name hNew _ hOld rfl
  have hNone := Option.isNone_iff_eq_none.mp (keep_of_mem_names hNew)
  have hSome := Option.isSome_iff_ne_none.mp (keep_of_mem_names hOld)
  exact hSome hNone

/-- Each write is the one that its name calls for. -/
theorem fits_mergeWrites : ∀ w ∈ mergeWrites incoming stored, w.Fits stored := by
  intro w hw
  rcases List.mem_append.mp hw with hAdd | hUpdate
  · obtain ⟨⟨name, value⟩, hMem, rfl⟩ := List.mem_map.mp hAdd
    exact Option.isNone_iff_eq_none.mp (mem_inOrder_filter.mp hMem).1
  · obtain ⟨⟨name, value⟩, hMem, rfl⟩ := List.mem_map.mp hUpdate
    exact Option.isSome_iff_ne_none.mp (mem_inOrder_filter.mp hMem).1

end Writes

theorem writeAll_append (key : Key) (writes rest : List PropertyWrite) :
    writeAll key (writes ++ rest) = writeAll key writes >>= fun _ => writeAll key rest := by
  induction writes with
  | nil => exact (pure_bind _ _).symm
  | cons w writes ih =>
    simp only [List.cons_append, writeAll, bind_assoc]
    exact congrArg _ (funext fun _ => ih)

/-- What is asked first is the first write, and a fault ends everything. -/
theorem run_writeAll_cons {α : Type} (key : Key) (w : PropertyWrite) (rest : List PropertyWrite)
    (f : Unit → Attempt α) :
    (writeAll key (w :: rest) >>= f).run = .ask (w.statement key) fun
      | .ok _ => (writeAll key rest >>= f).run
      | .error fault => .done (.error (.record (w.failed key) fault.cause)) := by
  rw [writeAll, bind_assoc, run_statement_bind]
  refine congrArg (Program.ask _) (funext fun reply => ?_)
  cases reply <;> rfl

theorem addAll_eq (key : Key) (entries : List (String × String)) :
    RecordCall.addAll key entries = writeAll key (entries.map fun e => .add e.1 e.2) := by
  induction entries with
  | nil => rfl
  | cons e rest ih => exact congrArg _ (funext fun _ => ih)

theorem updateAll_eq (key : Key) (entries : List (String × String)) :
    RecordCall.updateAll key entries = writeAll key (entries.map fun e => .update e.1 e.2) := by
  induction entries with
  | nil => rfl
  | cons e rest ih => exact congrArg _ (funext fun _ => ih)

/-- The two halves of a diff are the two parts of a merge. -/
theorem mergeWrites_eq (incoming existing : Properties) :
    mergeWrites incoming existing.get? =
      (PropertyDiff.compute incoming existing).toAdd.inOrder.map (fun e => .add e.1 e.2) ++
        (PropertyDiff.compute incoming existing).toUpdate.inOrder.map (fun e => .update e.1 e.2) := by
  have hNew : (fun name => (existing.get? name).isNone) = fun name => !existing.contains name := by
    funext name
    rw [Properties.contains_eq, Option.not_isSome]
  have hOld : (fun name => (existing.get? name).isSome) = existing.contains := by
    funext name
    rw [Properties.contains_eq]
  rw [mergeWrites, hNew, hOld]
  rfl

/-! ## The statements of a request to set properties -/

theorem attempt_writeDiff (now : Millis) (key : Key) (incoming existing : Properties) :
    Action.attempt now (Manager.writeDiff key (PropertyDiff.compute incoming existing)) = do
      let _ ← writeAll key (mergeWrites incoming existing.get?)
      return PropertyDiff.compute incoming existing := by
  rw [mergeWrites_eq]
  generalize PropertyDiff.compute incoming existing = diff
  rw [writeAll_append, ← addAll_eq, ← updateAll_eq, bind_assoc]
  have hAdd : Action.attempt now (Manager.record (.addProperties key diff.toAdd)) =
      RecordCall.addAll key diff.toAdd.inOrder := attempt_record _
  have hUpdate : Action.attempt now (Manager.record (.updateProperties key diff.toUpdate)) =
      RecordCall.updateAll key diff.toUpdate.inOrder := attempt_record _
  -- a half without names makes no call, and would write nothing
  have hLast : Action.attempt now (if (!diff.toUpdate.isEmpty) = true then
      (Manager.record (.updateProperties key diff.toUpdate) >>= fun _ => pure diff)
      else pure diff) = (RecordCall.updateAll key diff.toUpdate.inOrder >>= fun _ => pure diff) := by
    cases hEmpty : diff.toUpdate.isEmpty with
    | true =>
      rw [Properties.inOrder_of_isEmpty hEmpty]
      rfl
    | false => exact (attempt_bind _ _).trans (congrArg (· >>= fun _ => pure diff) hUpdate)
  unfold Manager.writeDiff
  dsimp only
  cases hEmpty : diff.toAdd.isEmpty with
  | true =>
    rw [Properties.inOrder_of_isEmpty hEmpty]
    exact hLast
  | false =>
    refine (attempt_bind _ _).trans ?_
    rw [hAdd]
    exact congrArg _ (funext fun _ => hLast)

/-- A request without names asks nothing. -/
theorem attempt_setProperties_of_isEmpty (now : Millis) (key : Key) {incoming : Properties}
    (hNone : incoming.isEmpty = true) :
    Action.attempt now (Manager.setProperties true key incoming) = pure default := by
  have hSet : Manager.setProperties true key incoming = pure default := by
    simp [Manager.setProperties, Manager.ensureEnabled, hNone]
  rw [hSet, attempt_pure]

/-- **The statements of a request to set properties**: it reads the entries of the key, and then makes
the writes that these call for. -/
theorem attempt_setProperties (now : Millis) (key : Key) {incoming : Properties}
    (hNames : incoming.isEmpty = false) :
    Action.attempt now (Manager.setProperties true key incoming) = do
      let rows ← RecordCall.statement (.readProperties key) (.selectProperties key)
      let _ ← writeAll key (mergeWrites incoming (Properties.ofList rows).get?)
      return PropertyDiff.compute incoming (Properties.ofList rows) := by
  have hRead : Action.attempt now (Manager.record (.getProperties key)) =
      Properties.ofList <$> RecordCall.statement (.readProperties key) (.selectProperties key) :=
    attempt_record _
  have hSet : Manager.setProperties true key incoming =
      Manager.record (.getProperties key) >>= fun existing =>
        Manager.writeDiff key (PropertyDiff.compute incoming existing) := by
    simp [Manager.setProperties, Manager.ensureEnabled, hNames]
  rw [hSet, attempt_bind]
  -- the read is one statement, and its rows are the existing properties
  refine (congrArg (· >>= _) hRead).trans ?_
  rw [map_eq_pure_bind, bind_assoc]
  refine congrArg _ (funext fun rows => ?_)
  exact (pure_bind _ _).trans (attempt_writeDiff now key incoming (Properties.ofList rows))

/-! ## What a write does -/

namespace Store

variable {key : Key} {s s₁ s' : Store} {entries more : List (String × String)} {w : PropertyWrite}

/-- Entries have been written over the properties of a key, and no other key has been touched. -/
def Overlaid (key : Key) (entries : List (String × String)) (s s' : Store) : Prop :=
  s'.property? = Function.update s.property? key (overlay (s.property? key) entries)

namespace Overlaid

theorem refl (key : Key) (s : Store) : Overlaid key [] s s :=
  (Function.update_eq_self key s.property?).symm

theorem at_key (h : Overlaid key entries s s') :
    s'.property? key = overlay (s.property? key) entries := by
  rw [h, Function.update_self]

theorem at_other {k : Key} (h : Overlaid key entries s s') (hk : k ≠ key) :
    s'.property? k = s.property? k := by
  rw [h, Function.update_of_ne hk]

theorem append (h : Overlaid key entries s s₁) (hMore : Overlaid key more s₁ s') :
    Overlaid key (entries ++ more) s s' := by
  rw [Overlaid, hMore, h.at_key, h, Function.update_idem, overlay_append]

end Overlaid

/-- A write that succeeds has written its entry; an update has to find its name. -/
theorem overlaid_of_execute {result : (w.statement key).Result}
    (h : execute (w.statement key) s = (.ok result, s'))
    (hThere : ∀ name value, w = .update name value → s.property? key name ≠ none) :
    Overlaid key [w.entry] s s' := by
  cases w with
  -- an insert that succeeds needs no hypothesis: it would not have succeeded on a name that is there
  | add name value => exact (execute_insertProperty h).2
  | update name value =>
    obtain ⟨old, hOld⟩ := Option.ne_none_iff_exists'.mp (hThere name value rfl)
    have hRows := execute_updateProperty h
    rwa [hOld, Option.map_some] at hRows

/-- On a ready store a write succeeds, or it adds a name that is there. -/
theorem PropertiesReady.execute_write (h : s.PropertiesReady)
    {reply : (w.statement key).Reply} (hExecute : execute (w.statement key) s = (reply, s'))
    (hThere : ∀ name value, w = .update name value → s.property? key name ≠ none) :
    s'.PropertiesReady ∧ ((∃ result, reply = .ok result ∧ Overlaid key [w.entry] s s') ∨
      ∃ name value, w = .add name value ∧ s.property? key name ≠ none ∧
        reply = .error .duplicate ∧ s' = s) := by
  cases w with
  | add name value =>
    by_cases hNew : s.property? key name = none
    · obtain ⟨s₁, hOk, hReady⟩ := h.execute_insertProperty value hNew
      cases hExecute.symm.trans hOk
      exact ⟨hReady, Or.inl ⟨(), rfl, overlaid_of_execute hOk hThere⟩⟩
    · cases hExecute.symm.trans (h.execute_insertProperty_duplicate value hNew)
      exact ⟨h, Or.inr ⟨name, value, rfl, hNew, rfl, rfl⟩⟩
  | update name value =>
    obtain ⟨s₁, hOk, hReady⟩ := h.execute_updateProperty key name value
    cases hExecute.symm.trans hOk
    exact ⟨hReady, Or.inl ⟨(), rfl, overlaid_of_execute hOk hThere⟩⟩

end Store

end Latch
