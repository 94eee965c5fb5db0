import Latch.Proofs.Lock.LazyExpiry
import Latch.Proofs.Lock.LockCall
import Mathlib.Data.List.Induction

/-!
# The longest lock wins

Requests to lock a key are made one after another. Each looks only at the row that it finds, and yet
the row at the end can be told from the requests alone: it is the lock of the first request that asked
for the latest unlock time. An active row counts as a request before the first, and a row that is not
active counts for nothing.

* `MadeCall` — a request to lock and the moment at which it is made;
* `Lock.over` — the row after a requested lock has been merged into it;
* `contenders` — the locks that compete for the row;
* `FirstLongest` — the first of some locks that last longest.

Main results:

* `Store.Ready.lockInTurn` — a run of requests merges one lock after the other into the row;
* `foldl_over_cases` — what comes of merging them;
* `longest_lock_wins` — the row at the end, whatever the order and however often it is asked for.
-/

namespace Latch

/-! ## Merging one lock after another -/

/-- The row after a requested lock has been merged into it. -/
def Lock.over (row : Option Lock) (requested : Lock) : Option Lock :=
  if requested.givesWay row then some requested else row

theorem Lock.update_over (rows : LockRows) (key : Key) (requested : Lock) :
    Function.update rows key (Lock.over (rows key) requested) =
      if requested.givesWay (rows key) then Function.update rows key (some requested) else rows := by
  rw [Lock.over]
  split
  · rfl
  · exact Function.update_eq_self key rows

/-- A lock is the first of those that last longest. -/
def FirstLongest (lock : Lock) (locks : List Lock) : Prop :=
  ∃ earlier later, locks = earlier ++ lock :: later ∧
    (∀ x ∈ earlier, x.unlockTime < lock.unlockTime) ∧ ∀ x ∈ later, x.unlockTime ≤ lock.unlockTime

namespace FirstLongest

variable {lock x : Lock} {locks : List Lock}

theorem mem (h : FirstLongest lock locks) : lock ∈ locks := by
  obtain ⟨earlier, later, rfl, -, -⟩ := h
  simp

theorem le (h : FirstLongest lock locks) (hx : x ∈ locks) : x.unlockTime ≤ lock.unlockTime := by
  obtain ⟨earlier, later, rfl, hEarlier, hLater⟩ := h
  rcases List.mem_append.mp hx with hx | hx
  · exact Int64.le_of_lt (hEarlier x hx)
  · rcases List.mem_cons.mp hx with rfl | hx
    · exact Int64.le_refl _
    · exact hLater x hx

theorem singleton (lock : Lock) : FirstLongest lock [lock] := ⟨[], [], rfl, by simp, by simp⟩

/-- A lock that comes later has to last longer. -/
theorem concat_of_le (h : FirstLongest lock locks) (hLe : x.unlockTime ≤ lock.unlockTime) :
    FirstLongest lock (locks ++ [x]) := by
  obtain ⟨earlier, later, rfl, hEarlier, hLater⟩ := h
  refine ⟨earlier, later ++ [x], by simp, hEarlier, ?_⟩
  intro y hy
  rcases List.mem_append.mp hy with hy | hy
  · exact hLater y hy
  · rwa [List.mem_singleton.mp hy]

theorem concat_of_lt (h : FirstLongest lock locks) (hLt : lock.unlockTime < x.unlockTime) :
    FirstLongest x (locks ++ [x]) := by
  refine ⟨locks, [], rfl, ?_, by simp⟩
  intro y hy
  exact Int64.lt_of_le_of_lt (h.le hy) hLt

/-- All that last longest end at the same time. -/
theorem unlockTime_eq {other : Lock} {others : List Lock} (h : FirstLongest lock locks)
    (hOther : FirstLongest other others) (hSame : ∀ x, x ∈ locks ↔ x ∈ others) :
    lock.unlockTime = other.unlockTime :=
  Int64.le_antisymm (hOther.le ((hSame lock).mp h.mem)) (h.le ((hSame other).mpr hOther.mem))

end FirstLongest

/-- The row that counts as a request before the first. -/
def activeRow (row : Option Lock) : List Lock := (row.filter Lock.locked).toList

theorem activeRow_eq_nil_iff {row : Option Lock} :
    activeRow row = [] ↔ ∀ old, row = some old → old.locked = false := by
  cases row with
  | none => simp [activeRow]
  | some old => cases hLocked : old.locked <;> simp [activeRow, Option.filter, hLocked]

/-- Whatever is merged into a row that is not active is stored. -/
theorem over_of_inactive {row : Option Lock} {requested : Lock} (h : activeRow row = []) :
    Lock.over row requested = some requested := by
  have hGives : requested.givesWay row = true := by
    cases row with
    | none => rfl
    | some old => simp [Lock.givesWay, activeRow_eq_nil_iff.mp h old rfl]
  rw [Lock.over, if_pos hGives]

theorem over_of_active {old requested : Lock} (hLocked : old.locked = true) :
    Lock.over (some old) requested =
      if old.unlockTime < requested.unlockTime then some requested else some old := by
  simp [Lock.over, Lock.givesWay, hLocked]

/-- What comes of merging locks into a row: nothing has changed as long as nothing competes for it, and
otherwise the first of those that last longest is stored. -/
theorem foldl_over_cases (row : Option Lock) {locks : List Lock}
    (hLocked : ∀ lock ∈ locks, lock.locked = true) :
    (activeRow row ++ locks = [] ∧ locks.foldl Lock.over row = row) ∨
      ∃ lock, locks.foldl Lock.over row = some lock ∧ lock.locked = true ∧
        FirstLongest lock (activeRow row ++ locks) := by
  induction locks using List.reverseRecOn with
  | nil =>
    rw [List.append_nil, List.foldl_nil]
    cases row with
    | none => exact Or.inl ⟨rfl, rfl⟩
    | some old =>
      cases hActive : old.locked with
      | false => exact Or.inl ⟨by simp [activeRow_eq_nil_iff, hActive], rfl⟩
      | true =>
        have hRow : activeRow (some old) = [old] := by simp [activeRow, Option.filter, hActive]
        rw [hRow]
        exact Or.inr ⟨old, rfl, hActive, .singleton old⟩
  | append_singleton locks x ih =>
    have hx : x.locked = true := hLocked x (by simp)
    rw [List.foldl_append, List.foldl_cons, List.foldl_nil, ← List.append_assoc]
    refine Or.inr ?_
    rcases ih fun lock hMem => hLocked lock (by simp [hMem]) with
      ⟨hNone, hRow⟩ | ⟨lock, hRow, hActive, hFirst⟩
    · -- nothing has competed before, so the row is not active
      rw [hNone, hRow, over_of_inactive (List.append_eq_nil_iff.mp hNone).1]
      exact ⟨x, rfl, hx, .singleton x⟩
    · rw [hRow, over_of_active hActive]
      by_cases hLt : lock.unlockTime < x.unlockTime
      · rw [if_pos hLt]
        exact ⟨x, rfl, hx, hFirst.concat_of_lt hLt⟩
      · rw [if_neg hLt]
        exact ⟨lock, rfl, hActive, hFirst.concat_of_le (Int64.not_lt.mp hLt)⟩

/-- A lock that has been merged already changes nothing when it is merged again. -/
theorem over_again {row : Option Lock} {locks : List Lock} {again : Lock}
    (hLocked : ∀ lock ∈ locks, lock.locked = true) (hAgain : again ∈ locks) :
    Lock.over (locks.foldl Lock.over row) again = locks.foldl Lock.over row := by
  have hMem : again ∈ activeRow row ++ locks := List.mem_append_right _ hAgain
  rcases foldl_over_cases row hLocked with ⟨hNone, -⟩ | ⟨lock, hRow, hActive, hFirst⟩
  · rw [hNone] at hMem
    cases hMem
  · rw [hRow, over_of_active hActive, if_neg (Int64.not_lt.mpr (hFirst.le hMem))]

/-! ## Runs of requests -/

/-- A request to lock and the moment at which it is made. -/
structure MadeCall where
  now : Millis
  call : LockCall
deriving DecidableEq

namespace MadeCall

def lock (made : MadeCall) : Lock := made.call.lockAt made.now

def step (key : Key) (made : MadeCall) : Step :=
  ⟨made.now, .lock key made.call.duration made.call.reasonCode made.call.reason⟩

theorem locked_lock (made : MadeCall) : made.lock.locked = true := rfl

end MadeCall

/-- Requests to lock a key are served one after another. -/
def Store.lockInTurn (s : Store) (key : Key) (made : List MadeCall) :
    List (Except Error LockAnswer) × Store :=
  serveAll Store.serve (made.map (MadeCall.step key)) s

/-- The locks that compete for a row: the row itself if it is active, and then what is asked for. -/
def contenders (row : Option Lock) (made : List MadeCall) : List Lock :=
  activeRow row ++ made.map MadeCall.lock

/-- A request merges the lock that it asks for into the row. -/
theorem Store.Ready.serve_lock {s : Store} (h : s.Ready) (key : Key) (made : MadeCall) :
    ∃ wrote s', s.serve (made.step key) = (.ok (.wrote wrote), s') ∧ s'.Ready ∧
      s'.lock? = Function.update s.lock? key (Lock.over (s.lock? key) made.lock) := by
  obtain ⟨outcome, s', hRun, hReady, -, hRows⟩ := h.run_lockUntil key made.lock made.now
  refine ⟨outcome.isWrite, s', ?_, hReady, ?_⟩
  · have hLock : (Manager.lock true key made.call.duration made.call.reasonCode
        made.call.reason).run.run (Effect.answer made.now) s = (.ok outcome, s') := by
      rw [run_lock_eq]
      exact hRun
    exact run_map_ok hLock
  · exact hRows.trans (Lock.update_over ..).symm

/-- A run of requests merges one lock after the other into the row, and every request succeeds. -/
theorem Store.Ready.lockInTurn {s : Store} (h : s.Ready) (key : Key) (made : List MadeCall) :
    (∀ answer ∈ (s.lockInTurn key made).1, ∃ wrote, answer = .ok (.wrote wrote)) ∧
      (s.lockInTurn key made).2.lock? =
        Function.update s.lock? key ((made.map MadeCall.lock).foldl Lock.over (s.lock? key)) := by
  induction made generalizing s with
  | nil => exact ⟨by simp [Store.lockInTurn, serveAll], (Function.update_eq_self key s.lock?).symm⟩
  | cons first rest ih =>
    obtain ⟨wrote, s', hServe, hReady, hRows⟩ := h.serve_lock key first
    obtain ⟨hAnswers, hRest⟩ := ih hReady
    have hTurn : s.lockInTurn key (first :: rest) =
        (.ok (.wrote wrote) :: (s'.lockInTurn key rest).1, (s'.lockInTurn key rest).2) := by
      simp only [Store.lockInTurn, List.map_cons, serveAll, hServe]
    rw [hTurn]
    refine ⟨List.forall_mem_cons.mpr ⟨⟨wrote, rfl⟩, hAnswers⟩, ?_⟩
    rw [hRest, hRows, Function.update_self, Function.update_idem, List.map_cons, List.foldl_cons]

theorem Store.Ready.lock?_lockInTurn {s : Store} (h : s.Ready) (key : Key) (made : List MadeCall) :
    (s.lockInTurn key made).2.lock? key =
      (made.map MadeCall.lock).foldl Lock.over (s.lock? key) := by
  rw [(h.lockInTurn key made).2, Function.update_self]

theorem forall_locked (made : List MadeCall) :
    ∀ lock ∈ made.map MadeCall.lock, lock.locked = true := by
  intro lock hMem
  obtain ⟨first, -, rfl⟩ := List.mem_map.mp hMem
  exact first.locked_lock

/-- The row at the end, from the requests alone. -/
theorem Store.Ready.lockInTurn_cases {s : Store} (h : s.Ready) (key : Key) (made : List MadeCall) :
    (contenders (s.lock? key) made = [] ∧ (s.lockInTurn key made).2.lock? key = s.lock? key) ∨
      ∃ lock, (s.lockInTurn key made).2.lock? key = some lock ∧
        FirstLongest lock (contenders (s.lock? key) made) := by
  rw [h.lock?_lockInTurn]
  refine (foldl_over_cases (s.lock? key) (forall_locked made)).imp_right ?_
  rintro ⟨lock, hRow, -, hFirst⟩
  exact ⟨lock, hRow, hFirst⟩

/-- Requests in another order end at the same unlock time. -/
theorem Store.Ready.lockInTurn_perm {s : Store} (h : s.Ready) (key : Key) {made made' : List MadeCall}
    (hPerm : made.Perm made') :
    ((s.lockInTurn key made').2.lock? key).map Lock.unlockTime =
      ((s.lockInTurn key made).2.lock? key).map Lock.unlockTime := by
  have hSame : (contenders (s.lock? key) made).Perm (contenders (s.lock? key) made') :=
    (hPerm.map _).append_left _
  rcases h.lockInTurn_cases key made with ⟨hNone, hRow⟩ | ⟨lock, hRow, hFirst⟩
  · rcases h.lockInTurn_cases key made' with ⟨-, hRow'⟩ | ⟨lock', -, hFirst'⟩
    · rw [hRow, hRow']
    · have hMem := hSame.mem_iff.mpr hFirst'.mem
      rw [hNone] at hMem
      cases hMem
  · rcases h.lockInTurn_cases key made' with ⟨hNone', -⟩ | ⟨lock', hRow', hFirst'⟩
    · have hMem := hSame.mem_iff.mp hFirst.mem
      rw [hNone'] at hMem
      cases hMem
    · rw [hRow, hRow', Option.map_some, Option.map_some]
      exact congrArg some (hFirst'.unlockTime_eq hFirst fun x => hSame.mem_iff.symm)

/-- **The longest lock wins, in any order.** Requests to lock a key are made one after another, at any
times and with any durations, while the store does not fail:

* every request succeeds;
* a request asks for the last moment if its duration is negative, and otherwise for the exact sum of
  its time and its duration, cut off at the last moment;
* the row at the end is the lock of the first request that asks for the latest unlock time, where an
  active row counts as a request before the first and any other row counts for nothing;
* in another order the requests end at the same unlock time;
* making a request again, at any later point and with the same time, changes nothing. -/
theorem longest_lock_wins {s : Store} (hReady : s.Ready) (key : Key) (made : List MadeCall) :
    (∀ answer ∈ (s.lockInTurn key made).1, ∃ wrote, answer = .ok (.wrote wrote)) ∧
    (∀ m : MadeCall, m.lock.unlockTime.toInt =
      if m.call.duration < 0 then Millis.last.toInt
      else min (m.now.toInt + m.call.duration.toInt) Millis.last.toInt) ∧
    ((contenders (s.lock? key) made = [] ∧ (s.lockInTurn key made).2.lock? key = s.lock? key) ∨
      ∃ lock, (s.lockInTurn key made).2.lock? key = some lock ∧
        FirstLongest lock (contenders (s.lock? key) made)) ∧
    (∀ made' : List MadeCall, made.Perm made' →
      ((s.lockInTurn key made').2.lock? key).map Lock.unlockTime =
        ((s.lockInTurn key made).2.lock? key).map Lock.unlockTime) ∧
    ∀ before after again, made = before ++ after → again ∈ before →
      (s.lockInTurn key (before ++ again :: after)).2.lock? key =
        (s.lockInTurn key made).2.lock? key := by
  refine ⟨(hReady.lockInTurn key made).1, fun m => m.call.toInt_lockAt m.now,
    hReady.lockInTurn_cases key made, fun made' hPerm => hReady.lockInTurn_perm key hPerm, ?_⟩
  rintro before after again rfl hAgain
  have hMerged : Lock.over ((before.map MadeCall.lock).foldl Lock.over (s.lock? key)) again.lock =
      (before.map MadeCall.lock).foldl Lock.over (s.lock? key) :=
    over_again (forall_locked before) (List.mem_map_of_mem hAgain)
  rw [hReady.lock?_lockInTurn, hReady.lock?_lockInTurn, List.map_append, List.map_append,
    List.map_cons, List.foldl_append, List.foldl_append, List.foldl_cons, hMerged]

/-! The first row is not active. Two requests ask for the same moment, a third one for an earlier moment
at a later time, and two for no end, one by its duration and one because the sum is cut off. -/

def fiveCalls : List MadeCall :=
  [⟨2000, 5000, some "A", none⟩, ⟨3000, 4000, some "B", none⟩, ⟨4000, 100, some "C", none⟩,
    ⟨.last, 5, some "D", none⟩, ⟨1000, -1, some "E", none⟩]

theorem longest_lock_wins_first :
    (Store.lockInTurn (.holding ⟨"alice", 1, "sms-otp"⟩ .unlocked) ⟨"alice", 1, "sms-otp"⟩
        fiveCalls).2.lock? ⟨"alice", 1, "sms-otp"⟩ = some (.lockedUntil .last (some "D") none) ∧
      FirstLongest (.lockedUntil .last (some "D") none) (fiveCalls.map MadeCall.lock) := by
  have hReady : (Store.holding ⟨"alice", 1, "sms-otp"⟩ .unlocked).Ready := ⟨rfl, rfl, fun _ => rfl⟩
  have hEnd : (Store.lockInTurn (.holding ⟨"alice", 1, "sms-otp"⟩ .unlocked) ⟨"alice", 1, "sms-otp"⟩
      fiveCalls).2.lock? ⟨"alice", 1, "sms-otp"⟩ = some (.lockedUntil .last (some "D") none) := by rfl
  obtain ⟨-, -, hRow, -⟩ := longest_lock_wins hReady ⟨"alice", 1, "sms-otp"⟩ fiveCalls
  rcases hRow with ⟨hNone, -⟩ | ⟨lock, hLock, hFirst⟩
  · cases hNone
  · cases hEnd.symm.trans hLock
    exact ⟨hEnd, hFirst⟩

end Latch
