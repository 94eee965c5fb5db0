/-!
# Moments and the clock

A moment is a count of milliseconds in a signed 64-bit word. Two additions exist side by side:

* `Millis.later` cuts off at the ends of the range, so that a lock for a very long time ends at the
  last moment and not in the past;
* a clock that is moved by hand wraps around, as the plain addition of words does.
-/

namespace Latch

/-- Milliseconds since 1970-01-01T00:00:00 UTC. -/
abbrev Millis := Int64

namespace Millis

/-- The last moment; as an unlock time it means "never". -/
def last : Millis := Int64.maxValue

/-- The moment `duration` after `start`, cut off at the ends of the range. -/
def later (start duration : Millis) : Millis :=
  Int64.ofIntClamp (start.toInt + duration.toInt)

theorem le_last (m : Millis) : m ≤ last :=
  Int64.le_iff_toInt_le.mpr m.toInt_le

end Millis

/-- A clock that stands still until it is moved. -/
structure Clock where
  now : Millis
deriving DecidableEq, Repr

namespace Clock

def set (_ : Clock) (moment : Millis) : Clock := ⟨moment⟩

/-- Moves the clock on, or back for a negative amount; it wraps around at the ends of the range. -/
def advance (clock : Clock) (amount : Millis) : Clock := ⟨clock.now + amount⟩

end Clock

end Latch
