import ElevatorFleet.Duration
import ElevatorFleet.Fault

/-!
What a car, a fleet and the riders' traffic are set up with, and what is refused.

* `CarSettings.check` asks for two floors, one place, a default floor inside the building and an
  idle timeout, in this order.
* `FleetSettings.check` asks for a car and checks every one.
* `TrafficSettings.check` asks for one percentage per floor adding up to a hundred, and for
  somewhere to go from every floor where riders can start.
-/

namespace ElevatorFleet

/-- What one car needs to know about itself. -/
structure CarSettings where
  height : Floor
  capacity : Nat
  timePerFloor : Duration
  doorTime : Duration
  idleTimeout : Duration
  defaultFloor : Floor
  deriving DecidableEq, Repr

/-- What a whole fleet is built from: the same settings for every car, but a default floor for
each. -/
structure FleetSettings where
  height : Floor
  capacity : Nat
  timePerFloor : Duration
  doorTime : Duration
  idleTimeout : Duration
  defaultFloors : List Floor
  deriving DecidableEq, Repr

/-- How riders appear. Percentages are listed by floor. -/
structure TrafficSettings where
  duration : Duration
  spawnInterval : Duration
  timeScale : Float
  startPercentages : List Nat
  destinationPercentages : List Nat

namespace CarSettings

/-- Refuses settings that no car can run with. -/
def check (s : CarSettings) : Except Fault Unit :=
  if s.height.val < 2 then .error (.invalidSetting .numFloors .tooFewFloors)
  else if s.capacity = 0 then .error (.invalidSetting .capacity .belowOne)
  else if s.height ≤ s.defaultFloor then .error (.floorOutOfRange s.defaultFloor s.height)
  else if s.idleTimeout.nanos = 0 then .error (.invalidSetting .idleTimeout .notPositive)
  else .ok ()

end CarSettings

namespace FleetSettings

/-- The settings of a car that rests on the given floor. -/
def carAt (s : FleetSettings) (defaultFloor : Floor) : CarSettings :=
  ⟨s.height, s.capacity, s.timePerFloor, s.doorTime, s.idleTimeout, defaultFloor⟩

/-- How many cars the fleet has. -/
def size (s : FleetSettings) : Nat := s.defaultFloors.length

/-- The settings of a car, if there is one with this number. -/
def car? (s : FleetSettings) (id : Nat) : Option CarSettings := s.defaultFloors[id]?.map s.carAt

/-- The first thing wrong with any of the cars. -/
def checkCars (s : FleetSettings) : List Floor → Except Fault Unit
  | [] => .ok ()
  | floor :: floors =>
      match (s.carAt floor).check with
      | .error fault => .error fault
      | .ok () => s.checkCars floors

/-- Refuses a fleet without cars, and one with a car that cannot run. -/
def check (s : FleetSettings) : Except Fault Unit :=
  if s.defaultFloors.isEmpty then .error (.invalidSetting .numElevators .noElevator)
  else s.checkCars s.defaultFloors

end FleetSettings

namespace TrafficSettings

/-- What the percentages of a table add up to. -/
def total (table : List Nat) : Nat := table.foldl (· + ·) 0

/-- Refuses a table that does not give every floor its percentage. -/
def checkTable (setting : Setting) (table : List Nat) (height : Floor) : Except Fault Unit :=
  if table.length ≠ height.val then
    .error (.invalidSetting setting (.entryCount height table.length))
  else if total table ≠ 100 then .error (.invalidSetting setting (.percentageSum (total table)))
  else .ok ()

/-- Whether riders who start on a floor can draw another floor as their destination. -/
def hasDestination (destinations : List Nat) (start : Nat) : Bool :=
  destinations.zipIdx.any fun (weight, floor) => floor != start && 0 < weight

/-- The first floor where riders can start but from where they have nowhere to go. -/
def stranding? (starts destinations : List Nat) : Option Nat :=
  (starts.zipIdx.find? fun (weight, start) =>
    0 < weight && !hasDestination destinations start).map (·.2)

/-- Refuses tables that riders cannot be drawn from. -/
def check (s : TrafficSettings) (height : Floor) : Except Fault Unit :=
  match checkTable .startProbabilities s.startPercentages height with
  | .error fault => .error fault
  | .ok () =>
      match checkTable .destinationProbabilities s.destinationPercentages height with
      | .error fault => .error fault
      | .ok () =>
          match stranding? s.startPercentages s.destinationPercentages with
          | some floor => .error (.invalidSetting .destinationProbabilities (.nowhereToGo floor))
          | none => .ok ()

end TrafficSettings

end ElevatorFleet
