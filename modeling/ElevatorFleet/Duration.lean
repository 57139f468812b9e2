import ElevatorFleet.Number.Exact

/-!
Spans of time in whole nanoseconds.

* `Duration.ofSeconds?` rounds a double to the nearest nanosecond and refuses what is negative, no
  number, or as long as `2 ^ 64` seconds.
* `Duration.seconds` goes back to a double, whole seconds and the rest apart.
-/

namespace ElevatorFleet

/-- A span of time. -/
structure Duration where
  nanos : Nat
  deriving DecidableEq, Repr

namespace Duration

/-- Nanoseconds in a second. -/
def perSecond : Nat := 1000000000

/-- Spans are shorter than `2 ^ 64` seconds. -/
def limit : Duration := ⟨18446744073709551616 * perSecond⟩

/-- The span of so many seconds, to the nearest nanosecond. A negative zero is no span less than
none. -/
def ofSeconds? (x : Float) : Option Duration :=
  match Exact.ofFloat x with
  | .finite value =>
      if value.negative && value.significand != 0 then none
      else
        let nanos := value.scaledRound 9
        if nanos < limit.nanos then some ⟨nanos⟩ else none
  | _ => none

/-- The span in seconds. -/
def seconds (d : Duration) : Float :=
  (d.nanos / perSecond).toFloat + (d.nanos % perSecond).toFloat / perSecond.toFloat

end Duration

end ElevatorFleet
