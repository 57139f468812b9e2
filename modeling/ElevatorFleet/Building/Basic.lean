import ElevatorFleet.Building.Person
import ElevatorFleet.Riders.Dialogue

/-!
A building and everybody in it: who waits on which floor, who is riding and who has arrived.

* `Building.enter` lets somebody in, who then waits on their start floor.
* `Building.next?` is the first in line on a floor who has not arrived and who goes the way the car
  goes; a car with nothing queued takes the first in line whatever the direction.
* `Building.keeper now` answers the questions of the cars at a moment.
-/

namespace ElevatorFleet

/-- A building. People are listed by number; the lines on the floors and the people who have
arrived there are listed by floor. -/
structure Building where
  height : Floor
  people : List Person
  waiting : List (List RiderId)
  arrived : List (List RiderId)
  deriving DecidableEq, Repr

namespace Building

/-- A building without people. -/
def vacant (height : Floor) : Building :=
  ⟨height, [], List.replicate height.val [], List.replicate height.val []⟩

/-- Lets somebody in, who waits on their start floor from now on. The answer is their number. -/
def enter (b : Building) (start destination : Floor) (now : Nat) : Attempt Building RiderId :=
  let id := b.people.length
  match Person.make id start destination b.height now with
  | .error fault => (.error fault, b)
  | .ok person =>
      (.ok id, { b with
        people := b.people ++ [person]
        waiting := b.waiting.modify start.val (· ++ [id]) })

/-- The number of people waiting. -/
def numWaiting (b : Building) : Nat := b.waiting.flatten.length

/-- The number of people who have arrived. -/
def numArrived (b : Building) : Nat := b.arrived.flatten.length

/-- Whether everybody has arrived. -/
def allArrived (b : Building) : Bool := b.people.all (·.hasArrived)

/-- The line on a floor; there is none outside the building. -/
def lineAt (b : Building) (floor : Floor) : List RiderId := b.waiting[floor.val]?.getD []

/-- The finished trips, in simulated seconds, by number. -/
def records (b : Building) (timeScale : Float) (now : Nat) : List TripRecord :=
  b.people.filterMap (·.record? timeScale now)

/-- Whether a rider may board a car that goes up, or does not. -/
def isBoardable (b : Building) (goingUp queueWasEmpty : Bool) (rider : RiderId) : Bool :=
  b.people[rider]?.any fun p => !p.hasArrived && (queueWasEmpty || p.goingUp == goingUp)

/-- Who boards next on a floor. -/
def next? (b : Building) (floor : Floor) (goingUp queueWasEmpty : Bool) : Option RiderId :=
  (b.lineAt floor).find? (b.isBoardable goingUp queueWasEmpty)

/-- A rider leaves the line of a floor and boards. -/
def toCar (b : Building) (floor : Floor) (rider : RiderId) (now : Nat) : Building :=
  { b with
    people := b.people.modify rider (·.board now)
    waiting := b.waiting.modify floor.val (·.filter (· != rider)) }

/-- A rider steps out on a floor and has arrived. -/
def toFloor (b : Building) (floor : Floor) (rider : RiderId) (now : Nat) : Building :=
  { b with
    people := b.people.modify rider (·.arrive now)
    arrived := b.arrived.modify floor.val (· ++ [rider]) }

/-- Where a rider wants to go. -/
def destination? (b : Building) (rider : RiderId) : Option Floor :=
  b.people[rider]?.map (·.destination)

/-- Whether a rider has arrived. -/
def hasArrived (b : Building) (rider : RiderId) : Bool := b.people[rider]?.any (·.hasArrived)

/-- Whether somebody in the line of a floor wants to go up, or down. -/
def hasWaiting (b : Building) (floor : Floor) (goingUp : Bool) : Bool :=
  (b.lineAt floor).any fun rider => b.people[rider]?.any (·.goingUp == goingUp)

/-- Answers the questions of the cars at a moment. -/
def keeper (now : Nat) : Keeper Building where
  answer
    | .destination rider, b => (b.destination? rider, b)
    | .hasArrived rider, b => (b.hasArrived rider, b)
    | .next floor goingUp queueWasEmpty, b => (b.next? floor goingUp queueWasEmpty, b)
    | .boarded floor rider, b => ((), b.toCar floor rider now)
    | .alighted floor rider, b => ((), b.toFloor floor rider now)
    | .hasWaiting floor goingUp, b => (b.hasWaiting floor goingUp, b)

end Building

end ElevatorFleet
