import ElevatorFleet.Number.Numeral

/-!
JSON values as they were written.

* Numbers are kept as numerals: whether one is an integer, and which double it is, is for the field
  that takes it to say.
* A string or key whose escapes spell half a surrogate pair stands for no text, and is `none`.
* Objects keep all their members in order, repeated keys included.
-/

namespace ElevatorFleet

/-- A JSON value. -/
inductive Json where
  | null
  | bool (b : Bool)
  | number (n : Numeral)
  | string (text : Option String)
  | array (items : List Json)
  | object (members : List (Option String × Json))

namespace Json

/-- The integer that a numeral spells, as far as it has neither point nor exponent nor a minus
sign. A negative zero is no integer. -/
def natural? : Json → Option Nat
  | number n =>
      if n.negative || !n.fraction.isEmpty || n.exponent.isSome then none
      else some (Numeral.value n.whole)
  | _ => none

/-- The natural number that a numeral spells, as far as it is below `bound`. -/
def below? (bound : Nat) (j : Json) : Option Nat :=
  j.natural?.bind fun n => if n < bound then some n else none

/-- The text of a string. -/
def text? : Json → Option String
  | string s => s
  | _ => none

/-- The items of an array. -/
def items? : Json → Option (List Json)
  | array items => some items
  | _ => none

/-- The members of an object. -/
def members? : Json → Option (List (Option String × Json))
  | object members => some members
  | _ => none

end Json

end ElevatorFleet
