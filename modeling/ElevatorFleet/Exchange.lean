import ElevatorFleet.Car.State
import ElevatorFleet.Riders.Dialogue

/-!
The exchange of riders between a car and the floor it has stopped at.

* Riders whose destination is the floor step out, in the order in which they stand in the car.
* Then riders are called one by one. The direction of the car and whether anything is queued are
  looked at afresh before each, so that the first rider of an empty queue decides where to go.
* A rider who does not fit in any more has the call raised again, and so has anybody who waits to
  go the other way.
* A fault ends the exchange at once and leaves the car as it was at that moment.
-/

namespace ElevatorFleet

/-- Who stepped out, who boarded, and which calls have to be raised again. -/
structure Exchange where
  alighted : List RiderId
  boarded : List RiderId
  recalls : List Request
  deriving DecidableEq, Repr

namespace Exchange

/-- The riders among those given who want to go to a floor. All of them have to be known. -/
def bound (floor : Floor) : List RiderId → Dialogue (Except Fault (List RiderId))
  | [] => .done (.ok [])
  | rider :: riders =>
      .ask (.destination rider) fun
        | none => .done (.error (.unknownRider rider))
        | some destination =>
            (bound floor riders).bind fun result =>
              .done (result.map fun rest => if destination = floor then rider :: rest else rest)

/-- Tells the keeper that riders have stepped out. -/
def announceAlighted (floor : Floor) : List RiderId → Dialogue Unit
  | [] => .done ()
  | rider :: riders => .ask (.alighted floor rider) fun _ => announceAlighted floor riders

/-- The call to raise again for a rider who does not fit in: in the direction of the car, or of the
rider while the car has none. -/
def refusal (s : CarState) (destination : Floor) : List Request :=
  let direction :=
    match s.direction with
    | .stop => Direction.toward s.floor destination
    | d => d
  (direction.call?.map fun call => ⟨s.floor, call⟩).toList

/-- Lets riders board a car with so many free places, and says who boarded and which call the last
rider who did not fit in raises. -/
def board (height : Floor) :
    (places : Nat) → CarState → Dialogue (Attempt CarState (List RiderId × List Request))
  | places, s =>
      .ask (.next s.floor (s.direction = .up) s.stops.isEmpty) fun
        | none => .done (.ok ([], []), s)
        | some rider =>
            .ask (.hasArrived rider) fun
              | true => .done (.error (.riderAlreadyArrived rider), s)
              | false =>
                  .ask (.destination rider) fun
                    | none => .done (.error (.unknownRider rider), s)
                    | some destination =>
                        match places with
                        | 0 => .done (.ok ([], refusal s destination), s)
                        | places + 1 =>
                            match s.addStop destination height with
                            | (.error fault, s) => .done (.error fault, s)
                            | (.ok _, s) =>
                                .ask (.boarded s.floor rider) fun _ =>
                                  let s := { s with riders := s.riders ++ [rider] }
                                  (board height places s).bind fun (result, s) =>
                                    .done (result.map fun (riders, recalls) =>
                                      (rider :: riders, recalls), s)

/-- The call to raise again for riders who wait to go against the direction of the car. -/
def recallOthers (s : CarState) : Dialogue (List Request) :=
  match s.direction.call? with
  | none => .done []
  | some call =>
      .ask (.hasWaiting s.floor call.opposite.isUp) fun
        | true => .done [⟨s.floor, call.opposite⟩]
        | false => .done []

/-- Swaps riders between a car and the floor it stands on. -/
def run (height : Floor) (capacity : Nat) (s : CarState) :
    Dialogue (Attempt CarState Exchange) := do
  match ← bound s.floor s.riders with
  | .error fault => pure (.error fault, s)
  | .ok alighted =>
      let staying := s.riders.filter (!alighted.contains ·)
      announceAlighted s.floor alighted
      match ← board height (capacity - staying.length) { s with riders := staying } with
      | (.error fault, s) => pure (.error fault, s)
      | (.ok (boarded, recalls), s) =>
          let others ← recallOthers s
          pure (.ok ⟨alighted, boarded, recalls ++ others⟩, s)

end Exchange

end ElevatorFleet
