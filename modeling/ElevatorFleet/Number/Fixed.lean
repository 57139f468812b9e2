import ElevatorFleet.Number.Exact

/-!
Numbers with a fixed count of decimal places, and columns of a fixed width.

* `Fixed.text places x` writes a double with that many places, rounding its exact value; the sign
  of a negative zero, or of a value that rounds to zero, is kept.
* `Column.left` and `Column.right` fill a cell up to its width and never cut it.
-/

namespace ElevatorFleet

namespace Fixed

/-- A natural number of `10 ^ (-places)` units in decimal notation. -/
def digits (places units : Nat) : String :=
  if places = 0 then toString units
  else
    let fraction := toString (units % Nat.pow 10 places)
    let padding := "".pushn '0' (places - fraction.length)
    s!"{units / Nat.pow 10 places}.{padding}{fraction}"

/-- A double with `places` decimal places. -/
def text (places : Nat) (x : Float) : String :=
  match Exact.ofFloat x with
  | .nan => "NaN"
  | .infinite negative => if negative then "-inf" else "inf"
  | .finite value =>
      (if value.negative then "-" else "") ++ digits places (value.scaledRound places)

end Fixed

namespace Column

/-- A cell of at least `width` characters, its text to the left. -/
def left (width : Nat) (s : String) : String := s.pushn ' ' (width - s.length)

/-- A cell of at least `width` characters, its text to the right. -/
def right (width : Nat) (s : String) : String := "".pushn ' ' (width - s.length) ++ s

end Column

end ElevatorFleet
