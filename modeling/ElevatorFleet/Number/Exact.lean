/-!
The exact value of a double, and rounding to the nearest integer.

* `Exact.ofFloat` reads sign, significand and exponent off the bits, so that what follows is integer
  arithmetic.
* `roundDiv` is the quotient rounded to nearest, a half going to the even neighbour.
* `Exact.scaledRound` rounds the magnitude times a power of ten: the digits with that many places.
-/

namespace ElevatorFleet

/-- The quotient `n / d` rounded to the nearest integer; a half goes to the even neighbour. -/
def roundDiv (n d : Nat) : Nat :=
  let q := n / d
  let twice := 2 * (n % d)
  if twice < d then q else if d < twice then q + 1 else q + q % 2

/-- A finite double: `± significand · 2 ^ exponent`. -/
structure Exact where
  negative : Bool
  significand : Nat
  exponent : Int
  deriving DecidableEq, Repr

/-- What a double stands for. -/
inductive Magnitude where
  | finite (value : Exact)
  | infinite (negative : Bool)
  | nan
  deriving DecidableEq, Repr

namespace Exact

/-- The value of a double, from its sign bit, eleven exponent bits and fifty-two fraction bits. -/
def ofFloat (x : Float) : Magnitude :=
  let bits : Nat := x.toBits.toNat
  let negative := bits >>> 63 == 1
  let exponent : Nat := (bits >>> 52) % 2048
  let fraction : Nat := bits % 4503599627370496
  if exponent == 2047 then
    if fraction == 0 then .infinite negative else .nan
  else if exponent == 0 then .finite ⟨negative, fraction, -1074⟩
  else .finite ⟨negative, 4503599627370496 + fraction, (exponent : Int) - 1075⟩

/-- The magnitude times `10 ^ places`, rounded to the nearest integer, a half going to the even
neighbour. -/
def scaledRound (x : Exact) (places : Nat) : Nat :=
  match x.exponent with
  | .ofNat e => (x.significand * Nat.pow 10 places) <<< e
  | .negSucc e => roundDiv (x.significand * Nat.pow 10 places) (1 <<< (e + 1))

end Exact

end ElevatorFleet
