import ElevatorFleet.Duration
import ElevatorFleet.Fault

/-!
People travelling between two floors of a building.

* The wait runs from the moment somebody shows up until they board, the ride from then until they
  step out. Both moments are set once and never move again.
* `Person.record?` is the finished trip in simulated seconds. Somebody who has arrived without ever
  having boarded has no ride, and no record.
-/

namespace ElevatorFleet

/-- Somebody travelling between two floors. Times are in nanoseconds. -/
structure Person where
  id : RiderId
  start : Floor
  destination : Floor
  createdAt : Nat
  boardedAt : Option Nat
  arrivedAt : Option Nat
  deriving DecidableEq, Repr

/-- A finished trip, in simulated seconds. -/
structure TripRecord where
  id : RiderId
  start : Floor
  destination : Floor
  wait : Float
  ride : Float

namespace Person

/-- Somebody who shows up now. Both floors have to be in the building, and they have to differ. -/
def make (id : RiderId) (start destination height : Floor) (now : Nat) : Except Fault Person :=
  if height ≤ start then .error (.floorOutOfRange start height)
  else if height ≤ destination then .error (.floorOutOfRange destination height)
  else if start = destination then .error (.invalidSetting .destination (.alreadyThere start))
  else .ok ⟨id, start, destination, now, none, none⟩

/-- Whether the trip goes up. -/
def goingUp (p : Person) : Bool := p.start < p.destination

/-- Boards now, unless they have boarded before. -/
def board (p : Person) (now : Nat) : Person :=
  { p with boardedAt := p.boardedAt.or (some now) }

/-- Arrives now, unless they have arrived before. -/
def arrive (p : Person) (now : Nat) : Person :=
  { p with arrivedAt := p.arrivedAt.or (some now) }

/-- Whether they have boarded. -/
def hasBoarded (p : Person) : Bool := p.boardedAt.isSome

/-- Whether they have arrived. -/
def hasArrived (p : Person) : Bool := p.arrivedAt.isSome

/-- How long they have waited, up to now. -/
def waitTime (p : Person) (now : Nat) : Duration := ⟨p.boardedAt.getD now - p.createdAt⟩

/-- How long they have been riding, up to now. -/
def rideTime? (p : Person) (now : Nat) : Option Duration :=
  p.boardedAt.map fun boarded => ⟨p.arrivedAt.getD now - boarded⟩

/-- The finished trip, in simulated seconds. -/
def record? (p : Person) (timeScale : Float) (now : Nat) : Option TripRecord :=
  if p.hasArrived then
    (p.rideTime? now).map fun ride =>
      ⟨p.id, p.start, p.destination, (p.waitTime now).seconds * timeScale,
        ride.seconds * timeScale⟩
  else none

end Person

end ElevatorFleet
