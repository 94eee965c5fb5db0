import Latch.Lock
import Latch.Proofs.Time.DateText

/-!
# What a lock shows of its unlock time

A lock without reasons is shown by its unlock time alone: by words if it has no end, by the bare number if
there is no date for it, and by its date and time otherwise. The three forms do not overlap, and none of
them stands for two moments, so the text of such a lock tells when it ends.

* `Lock.IsUndated` — a moment that has no date here: zero, or out of range;
* `Lock.Shown` — the three forms.

Main results:

* `Lock.shown_untilText` — an unlock time is shown in one of these forms;
* `Lock.Shown.unique` — no two unlock times are shown alike;
* `unlock_time_displayed` — the same for the texts of locks.
-/

namespace Latch

namespace Lock

variable {lock lock' : Lock} {u v : Millis} {cs : List Char}

/-- A moment that is shown as a number: there is no date for it. -/
def IsUndated (u : Millis) : Prop :=
  (u = 0 ∨ u.toInt < -8334601228800000 ∨ 8210266876799999 < u.toInt) ∧ u ≠ Int64.maxValue

/-- The three ways in which an unlock time is shown. -/
inductive Shown (u : Millis) : List Char → Prop
  | indefinite (h : u = Int64.maxValue) : Shown u "locked indefinitely".toList
  | number (h : IsUndated u) : Shown u ("locked until ".toList ++ (Decimal.int u.toInt ++ "ms".toList))
  | date {t : DateTime} {date : List Char} (h : ¬ IsUndated u) (hSome : u ≠ Int64.maxValue)
      (hDate : t.Written date) (hMoment : t.IsAt u.toInt) : Shown u ("locked until ".toList ++ date)

theorem isIndefinite_iff : lock.isIndefinite = true ↔ lock.unlockTime = Int64.maxValue :=
  decide_eq_true_iff

theorem unlockDate?_of_undated (h : IsUndated lock.unlockTime) : lock.unlockDate? = none := by
  obtain ⟨hZero | hRange, -⟩ := h
  · exact if_pos (Or.inl hZero)
  · have hOut : ¬ (firstDated ≤ lock.unlockTime.toInt ∧ lock.unlockTime.toInt ≤ lastDated) := by
      unfold firstDated lastDated
      omega
    rw [unlockDate?, if_neg hOut, ite_self]

theorem unlockDate?_of_dated (h : ¬ IsUndated lock.unlockTime)
    (hLast : lock.unlockTime ≠ Int64.maxValue) :
    lock.unlockDate? = some (DateTime.ofMillis lock.unlockTime.toInt) := by
  have hDated : ¬ (lock.unlockTime = 0 ∨ lock.isIndefinite = true) := by
    rintro (hZero | hIndefinite)
    · exact h ⟨Or.inl hZero, hLast⟩
    · exact hLast (isIndefinite_iff.mp hIndefinite)
  have hRange : firstDated ≤ lock.unlockTime.toInt ∧ lock.unlockTime.toInt ≤ lastDated := by
    unfold firstDated lastDated
    by_contra hOut
    exact h ⟨Or.inr (by omega), hLast⟩
  rw [unlockDate?, if_neg hDated, if_pos hRange]

/-- **An unlock time is shown in one of three ways.** -/
theorem shown_untilText (lock : Lock) : Shown lock.unlockTime lock.untilText := by
  unfold untilText
  split
  case isTrue hEnd => exact .indefinite (isIndefinite_iff.mp hEnd)
  case isFalse hEnd =>
    have hLast : lock.unlockTime ≠ Int64.maxValue := fun hLast => hEnd (isIndefinite_iff.mpr hLast)
    by_cases hUndated : IsUndated lock.unlockTime
    · rw [unlockDate?_of_undated hUndated]
      exact .number hUndated
    · rw [unlockDate?_of_dated hUndated hLast]
      have hMoment := DateTime.isAt_ofMillis lock.unlockTime.toInt
      exact .date hUndated hLast (DateTime.written_text hMoment.valid) hMoment

/-! ## The ways do not overlap -/

/-- What has no end is shown by words that begin otherwise than all others. -/
theorem indefinitely_ne (cs : List Char) :
    "locked indefinitely".toList ≠ "locked until ".toList ++ cs := by
  intro hSame
  have hWord := congrArg (List.head? ∘ List.drop 7) hSame
  exact absurd hWord (by simp)

/-- A number is shown with its unit at the end, and a date with its offset. -/
theorem number_ne_date {t : DateTime} (hDate : t.Written cs) (z : Int) :
    Decimal.int z ++ "ms".toList ≠ cs := by
  obtain ⟨front, rfl⟩ := hDate.ends
  intro hSame
  have hEnd := congrArg List.getLast? hSame
  simp at hEnd

theorem Shown.eq_indefinite_iff (h : Shown u cs) :
    cs = "locked indefinitely".toList ↔ u = Int64.maxValue := by
  constructor
  · intro hSame
    cases h with
    | indefinite hLast => exact hLast
    | number | date => exact absurd hSame.symm (indefinitely_ne _)
  · intro hLast
    cases h with
    | indefinite => rfl
    | number hUndated => exact absurd hLast hUndated.2
    | date _ hSome => exact absurd hLast hSome

theorem Shown.eq_number_iff (h : Shown u cs) :
    cs = "locked until ".toList ++ (Decimal.int u.toInt ++ "ms".toList) ↔ IsUndated u := by
  constructor
  · intro hSame
    cases h with
    | indefinite => exact absurd hSame (indefinitely_ne _)
    | number hUndated => exact hUndated
    | date _ _ hDate => exact absurd (List.append_cancel_left hSame).symm (number_ne_date hDate _)
  · intro hUndated
    cases h with
    | indefinite hLast => exact absurd hLast hUndated.2
    | number => rfl
    | date hDated => exact absurd hUndated hDated

theorem Shown.exists_date (h : Shown u cs) (hDated : ¬ IsUndated u) (hSome : u ≠ Int64.maxValue) :
    ∃ (t : DateTime) (date : List Char), t.Written date ∧ t.IsAt u.toInt ∧
      cs = "locked until ".toList ++ date := by
  cases h with
  | indefinite hLast => exact absurd hLast hSome
  | number hUndated => exact absurd hUndated hDated
  | date _ _ hDate hMoment => exact ⟨_, _, hDate, hMoment, rfl⟩

/-- **No two unlock times are shown alike.** -/
theorem Shown.unique (h : Shown u cs) (h' : Shown v cs) : u = v := by
  generalize hSame : cs = cs' at h'
  -- two of the same form show the same moment, and two of different forms differ
  cases h with
  | indefinite hLast =>
    cases h' with
    | indefinite hLast' => rw [hLast, hLast']
    | number | date => exact absurd hSame (indefinitely_ne _)
  | number =>
    cases h' with
    | indefinite => exact absurd hSame.symm (indefinitely_ne _)
    | number =>
      have hNumber := List.append_cancel_right (List.append_cancel_left hSame)
      exact Int64.toInt_inj.mp (Decimal.int_injective hNumber)
    | date _ _ hDate => exact absurd (List.append_cancel_left hSame) (number_ne_date hDate _)
  | date _ _ hDate hMoment =>
    cases h' with
    | indefinite => exact absurd hSame.symm (indefinitely_ne _)
    | number => exact absurd (List.append_cancel_left hSame).symm (number_ne_date hDate _)
    | date _ _ hDate' hMoment' =>
      rw [List.append_cancel_left hSame] at hDate
      cases hDate.unique hDate'
      exact Int64.toInt_inj.mp (hMoment.unique hMoment')

theorem text_eq (hLocked : lock.locked = true) (hCode : lock.reasonCode = none)
    (hReason : lock.reason = none) : lock.text = String.ofList lock.untilText := by
  rw [text, if_pos hLocked, reasonText, hCode, hReason]
  simp

end Lock

/-- **The displayed unlock time of a lock determines it.** For a lock without reasons, with any unlock
time:

* it is shown as locked indefinitely exactly if it has no end;
* it is shown by the number of milliseconds exactly if that is zero or out of the range of dates;
* otherwise it is shown by a date and time of the calendar, in UTC, which is that many milliseconds
  after the beginning of 1 January 1970 as the days are counted, one after the other, from there;
* so two such locks are shown alike only if they are the same. -/
theorem unlock_time_displayed :
    (∀ u : Millis,
      ((Lock.lockedUntil u none none).text = "locked indefinitely" ↔ u = Int64.maxValue) ∧
      ((Lock.lockedUntil u none none).text = "locked until " ++ toString u.toInt ++ "ms" ↔
        (u = 0 ∨ u.toInt < -8334601228800000 ∨ 8210266876799999 < u.toInt) ∧ u ≠ Int64.maxValue) ∧
      (u ≠ 0 → -8334601228800000 ≤ u.toInt → u.toInt ≤ 8210266876799999 →
        ∃ (t : DateTime) (date : List Char), t.Written date ∧ t.IsAt u.toInt ∧
          (Lock.lockedUntil u none none).text = "locked until " ++ String.ofList date)) ∧
    ∀ lock lock' : Lock, lock.locked = true → lock.reasonCode = none → lock.reason = none →
      lock'.locked = true → lock'.reasonCode = none → lock'.reason = none →
      lock.text = lock'.text → lock = lock' := by
  constructor
  · intro u
    have hShown := Lock.shown_untilText (Lock.lockedUntil u none none)
    rw [Lock.text_eq rfl rfl rfl]
    generalize (Lock.lockedUntil u none none).untilText = cs at hShown
    -- the texts as lists of characters
    have hSame : ∀ text : String, String.ofList cs = text ↔ cs = text.toList := by
      intro text
      rw [← String.ofList_toList (s := text), String.ofList_inj, String.toList_ofList]
    have hNumber : ("locked until " ++ toString u.toInt ++ "ms").toList =
        "locked until ".toList ++ (Decimal.int u.toInt ++ "ms".toList) := by
      rw [← Decimal.intText_eq_toString, Decimal.intText]
      simp
    refine ⟨?_, ?_, ?_⟩
    · rw [hSame]
      exact hShown.eq_indefinite_iff
    · rw [hSame, hNumber]
      exact hShown.eq_number_iff
    · intro hZero hLow hHigh
      have hDated : ¬ Lock.IsUndated u := by
        rintro ⟨hNone | hRange, -⟩
        · exact hZero hNone
        · omega
      have hSome : u ≠ Int64.maxValue := by
        rintro rfl
        exact absurd hHigh (by decide)
      obtain ⟨t, date, hDate, hMoment, rfl⟩ := hShown.exists_date hDated hSome
      exact ⟨t, date, hDate, hMoment, by rw [String.ofList_append, String.ofList_toList]⟩
  · intro lock lock' hLocked hCode hReason hLocked' hCode' hReason' hSame
    rw [Lock.text_eq hLocked hCode hReason, Lock.text_eq hLocked' hCode' hReason'] at hSame
    have hShown := Lock.shown_untilText lock
    rw [String.ofList_injective hSame] at hShown
    have hTime := hShown.unique (Lock.shown_untilText lock')
    obtain ⟨locked, u, reasonCode, reason⟩ := lock
    obtain ⟨locked', v, reasonCode', reason'⟩ := lock'
    dsimp only at hLocked hCode hReason hLocked' hCode' hReason' hTime
    rw [hLocked, hCode, hReason, hLocked', hCode', hReason', hTime]

/-! The last day of 400 years, and the first moment that has a date. -/

example : (Lock.lockedUntil 951868799001 none none).text =
    "locked until 2000-02-29T23:59:59.001+00:00" := by
  decide

example : (Lock.lockedUntil (-8334601228800000) none none).text =
    "locked until -262143-01-01T00:00:00+00:00" := by
  decide

end Latch
