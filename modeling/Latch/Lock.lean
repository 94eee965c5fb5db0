import Latch.Time.Calendar
import Latch.Time.Millis

/-!
# Locks

* `Lock` — the lock status that is stored for a key; `Lock.unlocked` stands for "nothing stored";
* `Lock.isExpiredAt` — whether a lock is over at a moment: its unlock time lies strictly before;
* `Lock.target` — the unlock time that a request for a duration asks for;
* `Lock.text` — the status as people see it;
* `LockOutcome` — what a request to lock has done.
-/

namespace Latch

structure Lock where
  locked : Bool
  /-- Means something only while `locked` holds. -/
  unlockTime : Millis
  reasonCode : Option String
  reason : Option String
deriving DecidableEq, Repr

namespace Lock

def unlocked : Lock := ⟨false, 0, none, none⟩

instance : Inhabited Lock := ⟨unlocked⟩

def lockedUntil (unlockTime : Millis) (reasonCode reason : Option String) : Lock :=
  ⟨true, unlockTime, reasonCode, reason⟩

def isExpiredAt (lock : Lock) (now : Millis) : Bool := lock.unlockTime < now

def isIndefinite (lock : Lock) : Bool := lock.unlockTime = Millis.last

/-- A negative duration asks for a lock without end. -/
def target (now duration : Millis) : Millis :=
  if duration < 0 then Millis.last else now.later duration

/-! ## The unlock time as a date -/

/-- The moments that have a calendar date here. -/
def firstDated : Int := -8334601228800000
def lastDated : Int := 8210266876799999

/-- The date of the unlock time; the zero time, the indefinite time and moments out of range have
none. -/
def unlockDate? (lock : Lock) : Option DateTime :=
  if lock.unlockTime = 0 ∨ lock.isIndefinite then none
  else if firstDated ≤ lock.unlockTime.toInt ∧ lock.unlockTime.toInt ≤ lastDated then
    some (DateTime.ofMillis lock.unlockTime.toInt)
  else none

/-! ## The status as text -/

def untilText (lock : Lock) : List Char :=
  if lock.isIndefinite then "locked indefinitely".toList
  else "locked until ".toList ++
    match lock.unlockDate? with
    | some date => date.text
    | none => Decimal.int lock.unlockTime.toInt ++ "ms".toList

def reasonText (lock : Lock) : List Char :=
  (match lock.reasonCode with
    | some code => " [".toList ++ code.toList ++ "]".toList
    | none => []) ++
  (match lock.reason with
    | some reason => ": ".toList ++ reason.toList
    | none => [])

def text (lock : Lock) : String :=
  if lock.locked then String.ofList (lock.untilText ++ lock.reasonText) else "unlocked"

end Lock

/-- What a request to lock has done. -/
inductive LockOutcome where
  /-- There was no row; one was inserted. -/
  | created
  /-- The row was not active; it was overwritten. -/
  | relocked
  /-- The row was active and ended earlier; it was overwritten. -/
  | extended
  /-- The row was active and lasts at least as long; nothing was written. -/
  | unchanged
deriving DecidableEq, Repr

namespace LockOutcome

def isWrite : LockOutcome → Bool
  | .unchanged => false
  | _ => true

def text : LockOutcome → String
  | .created => "created"
  | .relocked => "relocked"
  | .extended => "extended"
  | .unchanged => "unchanged"

def all : List LockOutcome := [created, relocked, extended, unchanged]

def ofText? (s : String) : Option LockOutcome := all.find? (·.text == s)

end LockOutcome

end Latch
