import ElevatorFleet.Car.State
import ElevatorFleet.Settings

/-!
A car with its settings, its running flag and its wake token.

* Whatever adds a floor to the queue leaves a token, so that a worker waiting for work finds it;
  the slot holds one token, and a second is dropped.
* `Car.offer` takes a hall call if the car is eligible and may accept it.
* `Car.move` is one step toward the next floor of the queue, or the stop there; `Car.drive` moves
  until the car has stopped.
* `Car.openDoors` and `Car.closeDoors` bracket a stop: doors stay shut while the car moves, and a
  car that closes them with nothing queued comes to rest.
-/

namespace ElevatorFleet

/-- A car. `token` says that there is a token in the wake slot. -/
structure Car where
  id : Nat
  settings : CarSettings
  state : CarState
  running : Bool
  token : Bool
  deriving DecidableEq, Repr

/-- The outcome of one movement step. -/
inductive Step where
  | passed (floor : Floor)
  | arrived (floor : Floor)
  deriving DecidableEq, Repr

namespace Car

/-- The resting state of a car: idle and empty on its default floor. -/
def restingState (settings : CarSettings) : CarState :=
  .resting settings.defaultFloor settings.height

/-- A fresh car, resting and ready to run. -/
def fresh (id : Nat) (settings : CarSettings) : Car :=
  ⟨id, settings, restingState settings, true, false⟩

/-- A fresh car, unless its settings are refused. -/
def make (id : Nat) (settings : CarSettings) : Except Fault Car :=
  match settings.check with
  | .error fault => .error fault
  | .ok () => .ok (fresh id settings)

/-- Whether something is queued. -/
def hasStops (c : Car) : Bool := !c.state.stops.isEmpty

/-- Whether the car is heading for the floor of a call, in the direction of the call. -/
def isServing (c : Car) (r : Request) : Bool := c.state.isServing r

/-- Leaves a token in the wake slot. -/
def wake (c : Car) : Car := { c with token := true }

/-- Leaves a token if something was added. -/
def wakeIf (c : Car) (added : Bool) : Car := if added then c.wake else c

/-- Offers a hall call: it is taken if the car is eligible and may accept it. A call for a floor
that is queued already is taken without a token. -/
def offer (c : Car) (eligible : CarState → Bool) (r : Request) : Attempt Car Bool :=
  if !eligible c.state || !c.state.canAccept r c.settings.capacity then (.ok false, c)
  else
    match c.state.accept r c.settings.height with
    | (.error fault, s) => (.error fault, { c with state := s })
    | (.ok added, s) => (.ok true, { c with state := s }.wakeIf added)

/-- Queues a floor, and says whether it was new. -/
def addStop (c : Car) (floor : Floor) : Attempt Car Bool :=
  match c.state.addStop floor c.settings.height with
  | (.error fault, s) => (.error fault, { c with state := s })
  | (.ok added, s) => (.ok added, { c with state := s }.wakeIf added)

/-- Whether the car is idle with nothing queued, away from its default floor. -/
def isAstray (c : Car) : Bool :=
  c.state.isIdle && c.state.stops.isEmpty && c.state.floor != c.settings.defaultFloor

/-- Sends an idle car home, and says whether there was a way to go. -/
def returnToDefault (c : Car) : Attempt Car Bool :=
  if !c.isAstray then (.ok false, c)
  else
    match c.state.addStop c.settings.defaultFloor c.settings.height with
    | (.error fault, s) => (.error fault, { c with state := s })
    | (.ok _, s) => (.ok true, { c with state := s }.wake)

/-- Moves one floor toward the next one of the queue. A car that stands there already takes it off
the queue and opens its doors. -/
def move (c : Car) : Attempt Car Step :=
  let s := c.state
  match s.stops.head? with
  | none => (.error (.noDestinations c.id), c)
  | some next =>
      if next = s.floor then
        (.ok (.arrived s.floor),
          { c with state := { s with stops := s.stops.tail, activity := .doorOpen } })
      else
        let d := Direction.toward s.floor next
        let floor := d.step s.floor
        (.ok (.passed floor),
          { c with state := { s with floor, direction := d, activity := .moving } })

/-- Moves up to `n` times, as long as the car only passes floors, and lists what happened. -/
def moves : Nat → Car → List (Except Fault Step) × Car
  | 0, c => ([], c)
  | n + 1, c =>
      match c.move with
      | (.ok (.passed floor), c) =>
          let (steps, c) := moves n c
          (.ok (.passed floor) :: steps, c)
      | (last, c) => ([last], c)

/-- The number of floors between the car and the next one of its queue. -/
def distance (c : Car) : Nat :=
  match c.state.stops.head? with
  | none => 0
  | some next => Floor.distance c.state.floor next

/-- Moves until the car has stopped, or cannot move. It passes one floor for each that lies between
it and the stop, and then arrives. -/
def drive (c : Car) : List (Except Fault Step) × Car := moves (c.distance + 1) c

/-- Opens the doors, unless the car is moving, and says on which floor. -/
def openDoors (c : Car) : Attempt Car Floor :=
  if c.state.activity = .moving then (.error (.doorsWhileMoving c.id), c)
  else (.ok c.state.floor, { c with state := { c.state with activity := .doorOpen } })

/-- Closes the doors. A car with something queued moves on, any other comes to rest. -/
def closeDoors (c : Car) : Car :=
  if c.state.activity ≠ .doorOpen then c
  else if c.state.stops.isEmpty then
    { c with state := { c.state with activity := .idle }.settle c.settings.height }
  else { c with state := { c.state with activity := .moving } }

/-- Takes the token out of the wake slot, and says whether there was one. -/
def takeToken (c : Car) : Bool × Car := (c.token, { c with token := false })

/-- Tells the worker of the car to stop, and wakes it. -/
def stop (c : Car) : Car := { c with running := false }.wake

/-- Puts the car back to rest, ready to run again, its wake slot empty. -/
def reset (c : Car) : Car :=
  { c with state := restingState c.settings, token := false, running := true }

end Car

end ElevatorFleet
