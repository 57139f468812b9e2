/-!
Decimal numerals and the two ways of reading one as a double.

* `Numeral` holds the parts of a written number: sign, digits before and after the point, exponent.
* `Numeral.nearest` is the double nearest to the exact value; beyond the range it is infinite.
* `Numeral.scaled?` takes the leading digits that fit in 64 bits, rounds them to a double and
  scales that by a power of ten; beyond the range there is no value.
* `Numeral.ofText?` and `natural?` read a number that makes up a whole text.
-/

namespace ElevatorFleet

/-- The parts of a written decimal number. -/
structure Numeral where
  negative : Bool
  whole : List Nat
  fraction : List Nat
  exponent : Option Int
  deriving DecidableEq, Repr

namespace Numeral

/-- The value of a decimal digit. -/
def digit? (c : Char) : Option Nat :=
  if '0' ≤ c ∧ c ≤ '9' then some (c.toNat - '0'.toNat) else none

/-- The digits at the start of a text, and the rest of it. -/
def digits : List Char → List Nat × List Char
  | [] => ([], [])
  | c :: cs =>
      match digit? c with
      | none => ([], c :: cs)
      | some d => let (ds, rest) := digits cs; (d :: ds, rest)

/-- The number that digits spell. -/
def value (ds : List Nat) : Nat := ds.foldl (fun n d => n * 10 + d) 0

/-- The sign at the start of a text, if there is one. -/
def sign : List Char → Bool × List Char
  | '-' :: cs => (true, cs)
  | '+' :: cs => (false, cs)
  | cs => (false, cs)

/-- The exponent at the start of a text: `e` or `E`, a sign perhaps, and digits. Without an `e`
there is none; an `e` that no digits follow is no exponent and spoils the number. -/
def exponent? : List Char → Option (Option Int × List Char)
  | c :: cs =>
      if c = 'e' ∨ c = 'E' then
        let (negative, cs) := sign cs
        match digits cs with
        | ([], _) => none
        | (ds, rest) => some (some (if negative then -(value ds : Int) else value ds), rest)
      else some (none, c :: cs)
  | [] => some (none, [])

/-- `10 ^ n` as a double. -/
def powerOfTen (n : Nat) : Float := Float.ofScientific 1 false n

/-- A double with its sign set. -/
def signed (negative : Bool) (x : Float) : Float := if negative then -x else x

/-- The double nearest to the written value, infinite where the value is too large. -/
def nearest (n : Numeral) : Float :=
  let ds := n.whole ++ n.fraction
  let significand := value ds
  let exponent := n.exponent.getD 0 - n.fraction.length
  signed n.negative <|
    if significand = 0 then 0.0
    else if exponent > 400 then 1.0 / 0.0
    else if exponent < -(ds.length : Int) - 400 then 0.0
    else Float.ofScientific significand (exponent < 0) exponent.natAbs

/-- The first number past 64 bits. -/
def wordBound : Nat := 18446744073709551616

/-- Appends digits to a significand for as long as it fits in 64 bits, and counts those that were
left out. Once a digit has been left out, so are all that follow it. -/
def packWhole (significand : Nat) : List Nat → Nat × Nat
  | [] => (significand, 0)
  | d :: ds =>
      if significand * 10 + d < wordBound then packWhole (significand * 10 + d) ds
      else (significand, ds.length + 1)

/-- The same for the digits after the point, counting those that were taken. -/
def packFraction (significand : Nat) : List Nat → Nat × Nat
  | [] => (significand, 0)
  | d :: ds =>
      if significand * 10 + d < wordBound then
        let (s, taken) := packFraction (significand * 10 + d) ds
        (s, taken + 1)
      else (significand, 0)

/-- Divides `n` times by `10 ^ 308`, the largest power of ten among the doubles. -/
def shrink : Nat → Float → Float
  | 0, x => x
  | n + 1, x => shrink n (x / powerOfTen 308)

/-- A 64-bit significand times `10 ^ exponent`: one rounded multiplication or, for a negative
exponent, one rounded division after steps of `10 ^ 308`. There is no value beyond the range. -/
def scale? (significand : Nat) (exponent : Int) : Option Float :=
  let x := Float.ofScientific significand false 0
  if significand = 0 then some x
  else if exponent > 308 then none
  else if 0 ≤ exponent then
    let y := x * powerOfTen exponent.natAbs
    if y.isFinite then some y else none
  else if exponent < -1540 then some 0.0
  else
    let n := exponent.natAbs
    let steps := (n - 1) / 308
    some (shrink steps x / powerOfTen (n - 308 * steps))

/-- The double that the leading digits give when they are scaled by a power of ten. -/
def scaled? (n : Numeral) : Option Float :=
  let (whole, dropped) := packWhole 0 n.whole
  let (significand, taken) := packFraction whole n.fraction
  (scale? significand (n.exponent.getD 0 + dropped - taken)).map (signed n.negative)

/-- A number that makes up a whole text: a sign perhaps, digits with a point among them, before
them or after them, and an exponent perhaps. -/
def ofChars? (cs : List Char) : Option Numeral :=
  let (negative, cs) := sign cs
  let (whole, cs) := digits cs
  let (fraction, cs) := match cs with
    | '.' :: cs => digits cs
    | cs => ([], cs)
  if whole.isEmpty && fraction.isEmpty then none
  else
    match exponent? cs with
    | some (exponent, []) => some ⟨negative, whole, fraction, exponent⟩
    | _ => none

/-- The words for values without digits, in lower case. -/
def ofWord? (s : String) : Option Float :=
  if s = "inf" ∨ s = "infinity" then some (1.0 / 0.0)
  else if s = "nan" then some (0.0 / 0.0)
  else none

/-- Reads a double that makes up a whole text, rounding to nearest. The words for infinity and for
no number may be in any case and may carry a sign. -/
def ofText? (s : String) : Option Float :=
  match ofChars? s.toList with
  | some n => some n.nearest
  | none =>
      let (negative, word) := sign s.toList
      (ofWord? (String.ofList (word.map Char.toLower))).map (signed negative)

/-- Reads a natural number below `2 ^ 64` that makes up a whole text; a plus sign may lead it. -/
def natural? (s : String) : Option Nat :=
  let cs := match s.toList with
    | '+' :: cs => cs
    | cs => cs
  match digits cs with
  | ([], _) => none
  | (ds, []) => if value ds < wordBound then some (value ds) else none
  | _ => none

end Numeral

end ElevatorFleet
