import ElevatorFleet.Json.Value

/-!
Reading records out of JSON values.

* A `Shape` lists the fields of a record: a name each, and the value that stands in where the field
  may be left out.
* `Shape.values?` finds the value of every field of a record that is written as an object, or as the
  array of its values in the order of the fields.
* `Json.choice?` reads one of several names, written as a string or as an object that gives the name
  the value `null`.
-/

namespace ElevatorFleet

namespace Json

/-- A double that a numeral spells. An integer of at most 64 bits is rounded to nearest; any other
numeral is its leading digits scaled by a power of ten. There is none beyond the range. -/
def float? : Json → Option Float
  | number n => n.scaled?
  | _ => none

/-- The items of an array, each read by the same rule. -/
def list? {α : Type} (read : Json → Option α) (j : Json) : Option (List α) :=
  j.items?.bind (·.mapM read)

/-- The name among several that a string spells. -/
def choice? {α : Type} (ofName? : String → Option α) : Json → Option α
  | string (some s) => ofName? s
  | object [(some s, null)] => ofName? s
  | _ => none

/-- The fields of a record in their order, each with its name and the value that stands in for it
where it may be left out. -/
abbrev Shape := List (String × Option Json)

namespace Shape

/-- The values of the fields written as an array: some at the front, and stand-ins for the rest. -/
def ofItems? : Shape → List Json → Option (List Json)
  | [], [] => some []
  | [], _ :: _ => none
  | (_, standIn) :: fields, [] => do pure ((← standIn) :: (← ofItems? fields []))
  | _ :: fields, j :: js => (ofItems? fields js).map (j :: ·)

/-- The value of one field among the members of an object: its only occurrence, or the stand-in
where it does not occur. -/
def ofMembers? (members : List (String × Json)) (field : String × Option Json) : Option Json :=
  match members.filter (·.1 == field.1) with
  | [] => field.2
  | [(_, j)] => some j
  | _ => none

/-- The values of the fields of a record. Members with other names are passed over; every key has
to be a text. -/
def values? (shape : Shape) : Json → Option (List Json)
  | array items => shape.ofItems? items
  | object members => do
      let members ← members.mapM fun (key, j) => key.map (·, j)
      shape.mapM (ofMembers? members)
  | _ => none

end Shape

end Json

end ElevatorFleet
