import ElevatorFleet.Building.Person
import ElevatorFleet.Strategy

/-!
The statistics of a simulation run.

* `Report.make` sums up finished trips: by start floor, by pair of floors, and overall. The table of
  people is in the order of their numbers, equal numbers in the order given.
* Sums are taken from zero in the order of the list at hand: as given for floors and pairs, by
  number for the overall averages.
-/

namespace ElevatorFleet

/-- The trips that started on one floor. -/
structure FloorStatistics where
  riders : Nat
  averageWait : Float
  maxWait : Float
  averageRide : Float

/-- The statistics of a run. The floors and the rows and columns of the matrix are in the order of
the building. -/
structure Report where
  strategies : Strategies
  people : Nat
  delivered : Nat
  floors : List FloorStatistics
  rideMatrix : List (List (Option Float))
  averageWait : Float
  averageRide : Float
  records : List TripRecord

namespace Report

/-- The average of some numbers, zero if there are none. -/
def average (xs : List Float) : Float :=
  if xs.isEmpty then 0.0 else xs.foldl (· + ·) 0.0 / xs.length.toFloat

/-- The greater of two numbers; what is no number counts for nothing. -/
def greater (a b : Float) : Float := if a.isNaN then b else if a < b then b else a

/-- The greatest of some numbers and zero. -/
def maximum (xs : List Float) : Float := xs.foldl greater 0.0

/-- The statistics of the trips that started on a floor. -/
def floorStatistics (records : List TripRecord) (floor : Nat) : FloorStatistics :=
  let fromHere := records.filter (·.start.val == floor)
  { riders := fromHere.length
    averageWait := average (fromHere.map (·.wait))
    maxWait := maximum (fromHere.map (·.wait))
    averageRide := average (fromHere.map (·.ride)) }

/-- The average ride between two floors, if anybody made the trip. -/
def rideBetween? (records : List TripRecord) (start destination : Nat) : Option Float :=
  match records.filter fun r => r.start.val == start && r.destination.val == destination with
  | [] => none
  | rides => some (average (rides.map (·.ride)))

/-- Trips in the order of the numbers of those who made them. -/
def byId (records : List TripRecord) : List TripRecord := records.mergeSort (·.id ≤ ·.id)

/-- The statistics of a run in a building of `height` floors, with so many `people` generated. -/
def make (strategies : Strategies) (height : Floor) (people : Nat) (records : List TripRecord) :
    Report :=
  let floors := List.range height.val
  let sorted := byId records
  { strategies, people
    delivered := sorted.length
    floors := floors.map (floorStatistics records)
    rideMatrix := floors.map fun start => floors.map (rideBetween? records start)
    averageWait := average (sorted.map (·.wait))
    averageRide := average (sorted.map (·.ride))
    records := sorted }

end Report

end ElevatorFleet
