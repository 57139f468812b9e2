import ElevatorFleet.Direction

/-!
What can go wrong, by cause, and the wording of each cause.

* `Setting` names a value that can be rejected and `Defect` the reason for rejecting it.
* `Fault` is the cause of a failed operation and `Fault.message` its one wording.
* `Attempt σ α` is what an operation on a state `σ` gives: an answer or a fault, together with the
  state that is left behind in either case.
-/

namespace ElevatorFleet

/-- The values that can be rejected. -/
inductive Setting where
  | numFloors
  | numElevators
  | capacity
  | idleTimeout
  | timeScale
  | durationMinutes
  | peoplePerMinute
  | drainSeconds
  | defaultFloors
  | timePerFloorMs
  | doorTimeMs
  | idleTimeoutMs
  | startProbabilities
  | destinationProbabilities
  | call
  | destination
  deriving DecidableEq, Repr

namespace Setting

/-- The name under which a value is configured. -/
def name : Setting → String
  | numFloors => "num_floors"
  | numElevators => "num_elevators"
  | capacity => "capacity"
  | idleTimeout => "idle_timeout"
  | timeScale => "time_scale"
  | durationMinutes => "duration_minutes"
  | peoplePerMinute => "people_per_minute"
  | drainSeconds => "drain_seconds"
  | defaultFloors => "default_floors"
  | timePerFloorMs => "time_per_floor_ms"
  | doorTimeMs => "door_time_ms"
  | idleTimeoutMs => "idle_timeout_ms"
  | startProbabilities => "start_probabilities"
  | destinationProbabilities => "destination_probabilities"
  | call => "call"
  | destination => "destination"

end Setting

/-- The reasons for rejecting a value. -/
inductive Defect where
  | tooFewFloors
  | noElevator
  | belowOne
  | notPositive
  | notPositiveNumber
  | negative
  | tooLong
  | entryCount (expected : Floor) (found : Nat)
  | defaultFloorCount (elevators found : Nat)
  | percentageSum (total : Nat)
  | nowhereToGo (floor : Nat)
  | noButton (call : Call) (floor : Floor)
  | alreadyThere (floor : Floor)
  deriving DecidableEq, Repr

namespace Defect

/-- The wording of a reason. -/
def text : Defect → String
  | tooFewFloors => "a building needs at least 2 floors"
  | noElevator => "a fleet needs at least 1 elevator"
  | belowOne => "must be at least 1"
  | notPositive => "must be greater than zero"
  | notPositiveNumber => "must be a positive number"
  | negative => "must not be negative"
  | tooLong => "does not fit in a duration at this time scale"
  | entryCount expected found => s!"expected {expected.val} entries, found {found}"
  | defaultFloorCount elevators found => s!"expected 1 or {elevators} entries, found {found}"
  | percentageSum total => s!"percentages sum to {total}, not 100"
  | nowhereToGo floor => s!"riders starting at floor {floor} have nowhere to go"
  | noButton call floor => s!"there is no {call.name} button on floor {floor.val}"
  | alreadyThere floor => s!"rider is already on floor {floor.val}"

end Defect

/-- The cause of a failed operation. -/
inductive Fault where
  | floorOutOfRange (floor height : Floor)
  | invalidSetting (setting : Setting) (defect : Defect)
  | unreadable (path : String)
  | unparsable
  | unknownElevator (id : Nat)
  | unknownRider (rider : RiderId)
  | riderAlreadyArrived (rider : RiderId)
  | doorsWhileMoving (id : Nat)
  | noDestinations (id : Nat)
  | destinationBehind (floor current : Floor) (direction : Direction)
  deriving DecidableEq, Repr

namespace Fault

/-- The wording of a fault. -/
def message : Fault → String
  | floorOutOfRange floor height =>
      s!"floor {floor.val} is out of range, the building has {height.val} floors"
  | invalidSetting setting defect => s!"invalid setting `{setting.name}`: {defect.text}"
  | unreadable path => s!"failed to read configuration file {path}"
  | unparsable => "failed to parse configuration"
  | unknownElevator id => s!"no elevator with id {id}"
  | unknownRider rider => s!"no rider with id {rider}"
  | riderAlreadyArrived rider => s!"rider {rider} has already arrived and cannot board again"
  | doorsWhileMoving id => s!"elevator {id} cannot open its doors while moving"
  | noDestinations id => s!"elevator {id} has no destination to move toward"
  | destinationBehind floor current direction =>
      s!"floor {floor.val} is behind elevator at floor {current.val} travelling {direction.label}"

end Fault

/-- What an operation on a state gives: its answer or the fault that stopped it, and the state left
behind in either case. -/
abbrev Attempt (σ α : Type) := Except Fault α × σ

end ElevatorFleet
