/-
`riaps::utils::Timeout<T>` (`include/utils/r_timeout.h`).

A timeout stores the start point of the last restart, a duration in ticks of
`T`, and the end point that `IsTimeout()` compares with the clock.  The
overloads of `Reset` do different things with these three fields: the ones
taking no argument or a duration restart the timeout, the one taking an
`int64_t` stores the duration and leaves the start and end points alone.

A `steady_clock::time_point` is an integer, in nanoseconds since the epoch of
the clock.  Every clock reading is an argument `now`; a handler reads the clock
once.
-/
import Mathlib.Data.Int.Notation
import Mathlib.Tactic.Common

namespace Riaps

/-- Length in nanoseconds of one tick of `std::chrono::milliseconds`. -/
abbrev milliseconds : ℤ := 1000000

/-- `std::chrono::seconds`. -/
abbrev seconds : ℤ := 1000000000

/-- `std::chrono::minutes`. -/
abbrev minutes : ℤ := 60000000000

/-- `Timeout<T>`, for a duration type `T` whose tick is `tick` nanoseconds long. -/
structure Timeout (tick : ℤ) where
  startPoint : ℤ
  timeout : ℤ
  endPoint : ℤ
deriving DecidableEq, Repr

namespace Timeout

variable {tick : ℤ}

/-- The members before a constructor body runs. -/
def blank : Timeout tick := ⟨0, 0, 0⟩

/-- `Reset()`: restart with the stored duration. -/
def reset (t : Timeout tick) (now : ℤ) : Timeout tick :=
  { t with startPoint := now, endPoint := now + t.timeout * tick }

/-- `Reset(T timeout)`: store the duration and restart. -/
def resetDuration (t : Timeout tick) (now : ℤ) (timeout : ℤ) : Timeout tick :=
  reset { t with timeout := timeout } now

/-- `Reset(int64_t timeout)`: store the duration.  The start and end points
keep their values. -/
def resetCount (t : Timeout tick) (timeout : ℤ) : Timeout tick :=
  { t with timeout := timeout }

/-- `Reset(int64_t lower_bound, int64_t upper_bound)`, which calls the overload for
`int64_t` with the number it draws. -/
def resetBounds (t : Timeout tick) (drawn : ℤ) : Timeout tick :=
  t.resetCount drawn

/-- `Timeout()`. -/
def ofDefault (now : ℤ) : Timeout tick :=
  blank.resetDuration now 0

/-- `Timeout(T timeout)`. -/
def ofDuration (now : ℤ) (timeout : ℤ) : Timeout tick :=
  blank.resetDuration now timeout

/-- `Timeout(int64_t timeout)`, which converts to `T` and restarts. -/
def ofCount (now : ℤ) (timeout : ℤ) : Timeout tick :=
  blank.resetDuration now timeout

/-- `Timeout(int64_t lower_bound, int64_t upper_bound)`. -/
def ofBounds (drawn : ℤ) : Timeout tick :=
  blank.resetBounds drawn

/-- `IsTimeout()`. -/
def isTimeout (t : Timeout tick) (now : ℤ) : Prop := t.endPoint < now

instance (t : Timeout tick) (now : ℤ) : Decidable (t.isTimeout now) :=
  inferInstanceAs (Decidable (t.endPoint < now))

@[simp] theorem reset_endPoint (t : Timeout tick) (now : ℤ) :
    (t.reset now).endPoint = now + t.timeout * tick := rfl

@[simp] theorem resetDuration_endPoint (t : Timeout tick) (now : ℤ) (d : ℤ) :
    (t.resetDuration now d).endPoint = now + d * tick := rfl

@[simp] theorem resetCount_endPoint (t : Timeout tick) (d : ℤ) :
    (t.resetCount d).endPoint = t.endPoint := rfl

@[simp] theorem ofDuration_endPoint (now : ℤ) (d : ℤ) :
    (ofDuration now d : Timeout tick).endPoint = now + d * tick := rfl

@[simp] theorem ofCount_endPoint (now : ℤ) (d : ℤ) :
    (ofCount now d : Timeout tick).endPoint = now + d * tick := rfl

theorem isTimeout_iff (t : Timeout tick) (now : ℤ) :
    t.isTimeout now ↔ t.endPoint < now := Iff.rfl

end Timeout

end Riaps
