import Latch.Lock

/-!
# Expiry

What a stored row counts for at a moment, and how the unlock times that requests ask for lie to it.

* `Lock.inForce?` — a row that has expired counts for nothing;
* `Lock.seen` — the status that a row stands for; no row stands for "unlocked";
* `Lock.givesWay` — a requested lock is written over a row;
* `LockOutcome.Tells` — what the outcome of a request tells of the row that it has found.

Main results:

* `Millis.toInt_later` — the end of a duration is the exact sum, cut off at the last moment;
* `Lock.le_target` — no request asks for an unlock time that has passed;
* `Lock.inForce?_inForce?` — what has expired stays so;
* `Lock.givesWay_inForce?` — a request that does not look whether a row has expired treats an expired
  row like none.
-/

namespace Latch

/-! ## Durations -/

namespace Millis

/-- The moment after a duration without a sign is the exact sum, cut off at the last moment. -/
theorem toInt_later {start duration : Millis} (h : ¬ duration < 0) :
    (start.later duration).toInt = min (start.toInt + duration.toInt) last.toInt := by
  have hDuration : 0 ≤ duration.toInt := by
    rw [Int64.not_lt, Int64.le_iff_toInt_le] at h
    simpa using h
  -- the sum is not below the start, so it can be cut off at the last moment only
  have hStart : Int64.minValue.toInt ≤ start.toInt := start.minValue_le_toInt
  unfold later last
  by_cases hFits : start.toInt + duration.toInt ≤ Int64.maxValue.toInt
  · rw [Int64.toInt_ofIntClamp (by omega) hFits]
    omega
  · rw [Int64.ofIntClamp, dif_pos (by omega), dif_neg hFits]
    omega

theorem le_later {start duration : Millis} (h : ¬ duration < 0) :
    start ≤ start.later duration := by
  have hDuration : 0 ≤ duration.toInt := by
    rw [Int64.not_lt, Int64.le_iff_toInt_le] at h
    simpa using h
  have hLast : start.toInt ≤ last.toInt := start.toInt_le
  rw [Int64.le_iff_toInt_le, toInt_later h]
  omega

end Millis

namespace Lock

theorem isExpiredAt_iff {lock : Lock} {now : Millis} :
    lock.isExpiredAt now = true ↔ lock.unlockTime < now := by
  simp [isExpiredAt]

theorem not_isExpiredAt_iff {lock : Lock} {now : Millis} :
    lock.isExpiredAt now = false ↔ now ≤ lock.unlockTime := by
  simp [isExpiredAt]

/-- What has expired stays so. -/
theorem isExpiredAt_of_le {lock : Lock} {now later : Millis} (h : lock.isExpiredAt now = true)
    (hLe : now ≤ later) : lock.isExpiredAt later = true :=
  isExpiredAt_iff.mpr (Int64.lt_of_lt_of_le (isExpiredAt_iff.mp h) hLe)

theorem le_target (now duration : Millis) : now ≤ target now duration := by
  unfold target
  split
  · exact Millis.le_last now
  · rename_i hDuration
    exact Millis.le_later hDuration

/-! ## What a row counts for -/

/-- A row that has expired counts for nothing. -/
def inForce? (now : Millis) (row : Option Lock) : Option Lock :=
  row.filter fun lock => !lock.isExpiredAt now

@[simp] theorem inForce?_none (now : Millis) : inForce? now none = none := rfl

theorem inForce?_of_expired {lock : Lock} {now : Millis} (h : lock.isExpiredAt now = true) :
    inForce? now (some lock) = none :=
  Option.filter_some_neg (by simp [h])

theorem inForce?_of_not_expired {lock : Lock} {now : Millis} (h : lock.isExpiredAt now = false) :
    inForce? now (some lock) = some lock :=
  Option.filter_some_pos (by simp [h])

theorem le_of_inForce? {lock : Lock} {row : Option Lock} {now : Millis}
    (h : inForce? now row = some lock) : now ≤ lock.unlockTime := by
  obtain ⟨-, hTest⟩ := Option.filter_eq_some_iff.mp h
  exact not_isExpiredAt_iff.mp (by simpa using hTest)

/-- Once a row counts for nothing it will always. -/
theorem inForce?_inForce? {now later : Millis} (hLe : now ≤ later) (row : Option Lock) :
    inForce? later (inForce? now row) = inForce? later row := by
  cases row with
  | none => rfl
  | some lock =>
    cases hExpired : lock.isExpiredAt now with
    | true =>
      rw [inForce?_of_expired hExpired, inForce?_of_expired (isExpiredAt_of_le hExpired hLe),
        inForce?_none]
    | false => rw [inForce?_of_not_expired hExpired]

/-- The status that a row stands for. -/
def seen (now : Millis) (row : Option Lock) : Lock := (inForce? now row).getD unlocked

@[simp] theorem seen_none (now : Millis) : seen now none = unlocked := rfl

theorem seen_of_expired {lock : Lock} {now : Millis} (h : lock.isExpiredAt now = true) :
    seen now (some lock) = unlocked := by
  rw [seen, inForce?_of_expired h]
  rfl

theorem seen_of_not_expired {lock : Lock} {now : Millis} (h : lock.isExpiredAt now = false) :
    seen now (some lock) = lock := by
  rw [seen, inForce?_of_not_expired h]
  rfl

/-- A status is "unlocked" or has not expired. -/
theorem seen_cases (now : Millis) (row : Option Lock) :
    seen now row = unlocked ∨ now ≤ (seen now row).unlockTime := by
  cases row with
  | none => exact Or.inl rfl
  | some lock =>
    cases hExpired : lock.isExpiredAt now with
    | true => exact Or.inl (seen_of_expired hExpired)
    | false =>
      rw [seen_of_not_expired hExpired]
      exact Or.inr (not_isExpiredAt_iff.mp hExpired)

/-! ## Writing over a row -/

/-- A requested lock is written if there is no row, or one that is not active or ends earlier. -/
def givesWay (requested : Lock) : Option Lock → Bool
  | none => true
  | some old => !old.locked || decide (old.unlockTime < requested.unlockTime)

/-- A request does not look whether the row has expired, and need not. -/
theorem givesWay_inForce? {requested : Lock} {now : Millis} (hLe : now ≤ requested.unlockTime)
    (row : Option Lock) : givesWay requested (inForce? now row) = givesWay requested row := by
  cases row with
  | none => rfl
  | some old =>
    cases hExpired : old.isExpiredAt now with
    | true =>
      -- an expired row ends before the present, and the request does not
      have hLt : old.unlockTime < requested.unlockTime :=
        Int64.lt_of_lt_of_le (isExpiredAt_iff.mp hExpired) hLe
      simp [inForce?_of_expired hExpired, givesWay, hLt]
    | false => rw [inForce?_of_not_expired hExpired]

end Lock

/-! ## What an outcome tells -/

/-- What the outcome of a request tells of the row that it has found. -/
inductive LockOutcome.Tells (requested : Lock) : Option Lock → LockOutcome → Prop
  | created : Tells requested none .created
  | relocked {old : Lock} (hInactive : old.locked = false) : Tells requested (some old) .relocked
  | extended {old : Lock} (hActive : old.locked = true)
      (hEarlier : old.unlockTime < requested.unlockTime) : Tells requested (some old) .extended
  | unchanged {old : Lock} (hActive : old.locked = true)
      (hLate : requested.unlockTime ≤ old.unlockTime) : Tells requested (some old) .unchanged

namespace LockOutcome.Tells

variable {requested : Lock} {row : Option Lock} {outcome : LockOutcome}

theorem created_iff (h : Tells requested row outcome) : outcome = .created ↔ row = none := by
  cases h <;> simp

theorem relocked_iff (h : Tells requested row outcome) :
    outcome = .relocked ↔ ∃ old, row = some old ∧ old.locked = false := by
  cases h <;> simp_all

theorem extended_iff (h : Tells requested row outcome) :
    outcome = .extended ↔ ∃ old, row = some old ∧ old.locked = true ∧
      old.unlockTime < requested.unlockTime := by
  cases h <;> simp_all

theorem unchanged_iff (h : Tells requested row outcome) :
    outcome = .unchanged ↔ ∃ old, row = some old ∧ old.locked = true ∧
      requested.unlockTime ≤ old.unlockTime := by
  cases h <;> simp_all

/-- A request writes exactly if the row gives way. -/
theorem isWrite_eq (h : Tells requested row outcome) : outcome.isWrite = requested.givesWay row := by
  cases h <;> simp_all [isWrite, Lock.givesWay]

end LockOutcome.Tells

end Latch
