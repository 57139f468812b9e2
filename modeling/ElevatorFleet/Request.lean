import ElevatorFleet.Fault

/-!
Hall calls: somebody on a floor has pressed one of its buttons.

* `Request.checked` refuses floors outside the building, and is the only check a call undergoes
  before it is handed to the cars.
-/

namespace ElevatorFleet

/-- A hall call: somebody on `floor` has pressed the button for `call`. -/
structure Request where
  floor : Floor
  call : Call
  deriving DecidableEq, Repr

namespace Request

/-- A call in a building of `height` floors. -/
def checked (floor : Floor) (call : Call) (height : Floor) : Except Fault Request :=
  if height ≤ floor then .error (.floorOutOfRange floor height) else .ok ⟨floor, call⟩

/-- Whether the caller wants to go up. -/
def goingUp (r : Request) : Bool := r.call.isUp

/-- The direction the caller wants to travel in. -/
def direction (r : Request) : Direction := r.call.direction

/-- The call in words, such as `floor 7 up`. -/
def text (r : Request) : String := s!"floor {r.floor.val} {r.call.name}"

end Request

end ElevatorFleet
