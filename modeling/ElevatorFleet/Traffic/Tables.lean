import ElevatorFleet.Direction

/-!
Drawing trips from percentage tables.

* `Tables.cumulative` turns percentages into running totals, and `Tables.pick` finds the first floor
  whose total exceeds a roll of a hundred-sided die.
* `Rolls τ` is any supply of such rolls.
* `Tables.trip?` draws a start floor and then destinations until one differs from it.
-/

namespace ElevatorFleet

/-- A supply of rolls between `0` and `99`. -/
structure Rolls (τ : Type) where
  next : τ → Nat × τ

/-- The running totals of the percentages of start floors and of destinations. -/
structure Tables where
  starts : List Nat
  destinations : List Nat
  deriving DecidableEq, Repr

namespace Tables

/-- Running totals on top of a total so far. -/
def totals (total : Nat) : List Nat → List Nat
  | [] => []
  | weight :: weights => (total + weight) :: totals (total + weight) weights

/-- The running totals of a table of percentages. -/
def cumulative (weights : List Nat) : List Nat := totals 0 weights

/-- The tables of two lists of percentages. -/
def ofPercentages (starts destinations : List Nat) : Tables :=
  ⟨cumulative starts, cumulative destinations⟩

/-- The index a roll picks: the first whose total exceeds the roll, or else the last one. -/
def pickIndex (table : List Nat) (roll : Nat) : Nat :=
  (table.findIdx? (roll < ·)).getD (table.length - 1)

/-- The floor a roll picks. -/
def pick (table : List Nat) (roll : Nat) : Floor :=
  ⟨pickIndex table roll % 256, Nat.mod_lt _ (by decide)⟩

variable {τ : Type}

/-- Draws up to `fuel` destinations until one differs from the start floor. -/
def redraw? (rolls : Rolls τ) (table : List Nat) (start : Floor) :
    (fuel : Nat) → τ → Option (Floor × τ)
  | 0, _ => none
  | fuel + 1, s =>
      let (roll, s) := rolls.next s
      let destination := pick table roll
      if destination = start then redraw? rolls table start fuel s else some (destination, s)

/-- The number of draws after which a destination is given up. A table with somewhere to go ends the
draws with one chance in a hundred each time, so no trip that is drawn at random gets there. -/
def patience : Nat := 1000000

/-- Draws a start floor and a destination. -/
def trip? (t : Tables) (rolls : Rolls τ) (s : τ) : Option ((Floor × Floor) × τ) :=
  let (roll, s) := rolls.next s
  let start := pick t.starts roll
  (redraw? rolls t.destinations start patience s).map fun (destination, s) =>
    ((start, destination), s)

/-- Draws so many trips one after the other. -/
def trips (t : Tables) (rolls : Rolls τ) : (count : Nat) → τ → List (Floor × Floor)
  | 0, _ => []
  | count + 1, s =>
      match t.trip? rolls s with
      | none => []
      | some (trip, s) => trip :: t.trips rolls count s

end Tables

end ElevatorFleet
