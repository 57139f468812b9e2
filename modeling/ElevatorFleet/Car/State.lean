import ElevatorFleet.Car.Stops
import ElevatorFleet.Request

/-!
Where a car stands, where it is heading and whom it carries.

* `CarState.canAccept` is the test for a hall call: an idle car takes anything, one under way only
  what lies ahead of it in its own direction, and only while it has room.
* `CarState.addStop` queues a floor. A car that is idle, has nothing queued or has no direction
  turns toward the floor; any other keeps its direction and refuses what lies behind it.
* `CarState.accept` queues the floor of a hall call.
-/

namespace ElevatorFleet

/-- What a car is doing. -/
inductive Activity where
  | idle
  | moving
  | doorOpen
  deriving DecidableEq, Repr

/-- The name of an activity in tables. -/
def Activity.name : Activity → String
  | idle => "idle"
  | moving => "moving"
  | doorOpen => "doorOpen"

/-- Where a car stands, where it is heading and whom it carries. -/
structure CarState where
  floor : Floor
  direction : Direction
  activity : Activity
  stops : Stops
  riders : List RiderId
  deriving DecidableEq, Repr

namespace CarState

/-- An idle, empty car in a building of `height` floors. -/
def resting (floor height : Floor) : CarState :=
  ⟨floor, .atEdge floor height, .idle, .empty, []⟩

/-- Whether the car has come to rest. -/
def isIdle (s : CarState) : Bool := s.activity = .idle

/-- Whether the car is moving, or has stopped on its way with open doors. -/
def isActive (s : CarState) : Bool := s.activity = .moving || s.activity = .doorOpen

/-- Whether nobody else fits in. -/
def isFull (s : CarState) (capacity : Nat) : Bool := capacity ≤ s.riders.length

/-- Whether the car is heading for the floor of a call, in the direction of the call. -/
def isServing (s : CarState) (r : Request) : Bool :=
  s.stops.contains r.floor && s.direction = r.direction

/-- Whether the car may take a hall call. -/
def canAccept (s : CarState) (r : Request) (capacity : Nat) : Bool :=
  if s.isIdle then true
  else if s.isFull capacity then false
  else s.direction = r.direction && s.direction.reaches s.floor r.floor

/-- The direction of a car that turns toward a floor. For the floor it stands on it keeps the one
it has; without one it takes the direction that leads away from the top. -/
def turnedToward (s : CarState) (floor height : Floor) : Direction :=
  match Direction.toward s.floor floor with
  | .stop =>
      if s.direction = .stop then (if height.val ≤ floor.val + 1 then .down else .up)
      else s.direction
  | d => d

/-- Puts a floor into the queue of a car that sweeps in direction `d`; an idle car sets off. -/
def enqueue (s : CarState) (floor : Floor) (d : Direction) : CarState :=
  { s with
    direction := d
    stops := s.stops.insert floor d
    activity := if s.isIdle then .moving else s.activity }

/-- Queues a floor in a building of `height` floors, and says whether it was new. -/
def addStop (s : CarState) (floor height : Floor) : Attempt CarState Bool :=
  if height ≤ floor then (.error (.floorOutOfRange floor height), s)
  else if s.stops.contains floor then (.ok false, s)
  else if s.isIdle || s.stops.isEmpty || s.direction = .stop then
    (.ok true, s.enqueue floor (s.turnedToward floor height))
  else if s.direction.reaches s.floor floor then (.ok true, s.enqueue floor s.direction)
  else (.error (.destinationBehind floor s.floor s.direction), s)

/-- The state in which a car takes a hall call: an idle car that stands on the floor of the call
turns in the direction of the call, before anything is checked. -/
def facing (s : CarState) (r : Request) : CarState :=
  if s.isIdle && r.floor = s.floor then { s with direction := r.direction } else s

/-- Queues the floor of a hall call, and says whether it was new. -/
def accept (s : CarState) (r : Request) (height : Floor) : Attempt CarState Bool :=
  (s.facing r).addStop r.floor height

/-- With nothing queued the direction is that of the edge the car stands on, or none. -/
def settle (s : CarState) (height : Floor) : CarState :=
  if s.stops.isEmpty then { s with direction := .atEdge s.floor height } else s

end CarState

end ElevatorFleet
