/-!
Floors, travel directions and the two buttons of a hall.

* `Floor`: floors are bytes, counted from `Floor.ground`.
* `Direction.toward` is the direction that leads from one floor to another, and
  `Direction.reaches` says whether a floor is still ahead of a car (or under it).
* `Direction.step` moves one floor and stays put at the ends of the byte range.
* `Direction.Precedes` is the order in which a sweep meets floors, and
  `Direction.atEdge` the direction an empty car settles on.
-/

namespace ElevatorFleet

/-- A floor, or a number of floors: one byte. A building of `height` floors has the floors
below `height`. -/
abbrev Floor := Fin 256

/-- The ground floor. -/
def Floor.ground : Floor := ⟨0, by decide⟩

/-- The number of floors between two floors. -/
def Floor.distance (a b : Floor) : Nat := (a.val - b.val) + (b.val - a.val)

/-- The identifier of a rider. -/
abbrev RiderId := Nat

/-- The travel direction of a car. `stop` means that none has been chosen yet. -/
inductive Direction where
  | down
  | stop
  | up
  deriving DecidableEq, Repr

/-- The two buttons of a hall: somebody wants to go up, or down. -/
inductive Call where
  | up
  | down
  deriving DecidableEq, Repr

namespace Direction

/-- The direction that takes a car from `here` to `there`. -/
def toward (here there : Floor) : Direction :=
  if here < there then .up else if there < here then .down else .stop

/-- Whether `floor` is ahead of a car at `current`, or under it. Nothing is ahead of a car without
a direction. -/
def reaches (d : Direction) (current floor : Floor) : Bool :=
  match d with
  | .up => current ≤ floor
  | .down => floor ≤ current
  | .stop => false

/-- One floor further, staying put at the last byte above and at the ground floor below. -/
def step (d : Direction) (floor : Floor) : Floor :=
  match d with
  | .up => if h : floor.val + 1 < 256 then ⟨floor.val + 1, h⟩ else floor
  | .down => ⟨floor.val - 1, by omega⟩
  | .stop => floor

/-- A sweep in direction `d` meets `a` before `b`: downwards the higher floor comes first, in every
other case the lower one. -/
def Precedes (d : Direction) (a b : Floor) : Prop :=
  match d with
  | .down => b < a
  | .up | .stop => a < b

instance (d : Direction) (a b : Floor) : Decidable (d.Precedes a b) := by
  cases d <;> unfold Precedes <;> infer_instance

/-- The direction an empty car settles on: only the ground floor and the top floor force one. -/
def atEdge (floor height : Floor) : Direction :=
  if floor.val = 0 then .up else if height.val ≤ floor.val + 1 then .down else .stop

/-- The button of riders going this way. -/
def call? : Direction → Option Call
  | .up => some .up
  | .down => some .down
  | .stop => none

/-- The direction in lower case, where there is one to show. -/
def name? : Direction → Option String
  | .up => some "up"
  | .down => some "down"
  | .stop => none

/-- The direction as messages write it. -/
def label : Direction → String
  | .up => "Up"
  | .down => "Down"
  | .stop => "Stop"

end Direction

namespace Call

/-- The button for riders going up, or the one for riders going down. -/
def ofUp (goingUp : Bool) : Call := if goingUp then .up else .down

/-- Whether the button is the one for going up. -/
def isUp : Call → Bool
  | .up => true
  | .down => false

/-- The direction the button asks for. -/
def direction : Call → Direction
  | .up => .up
  | .down => .down

/-- The other button of the same hall. -/
def opposite : Call → Call
  | .up => .down
  | .down => .up

/-- The button in lower case. -/
def name : Call → String
  | .up => "up"
  | .down => "down"

end Call

end ElevatorFleet
