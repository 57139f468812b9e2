import ElevatorFleet.Backfill
import ElevatorFleet.Dispatch

/-!
A fleet: its cars, the rules it runs under, the calls nobody has taken yet and the clock.

* `Fleet.make` builds every car idle on its default floor, unless a setting is refused.
* `Fleet.dispatch` hands out a hall call and `Fleet.press` the call of a button, if there is one.
* `Fleet.backfill` hands pending calls to one car, and `Fleet.onCar` does something with one car.
* `Fleet.stopAll` and `Fleet.reset` act on all cars; a reset forgets every pending call.
-/

namespace ElevatorFleet

/-- A fleet. The cars are listed by number, and the clock counts nanoseconds. -/
structure Fleet where
  settings : FleetSettings
  strategies : Strategies
  cars : List Car
  pool : Pool
  clock : Nat
  deriving DecidableEq, Repr

namespace Fleet

/-- A fleet at rest, all of its cars on their default floors. -/
def resting (settings : FleetSettings) (strategies : Strategies) : Fleet where
  settings := settings
  strategies := strategies
  cars := settings.defaultFloors.mapIdx fun id floor => .fresh id (settings.carAt floor)
  pool := .empty
  clock := 0

/-- A fleet at rest, unless its settings are refused. -/
def make (settings : FleetSettings) (strategies : Strategies) : Except Fault Fleet :=
  match settings.check with
  | .error fault => .error fault
  | .ok () => .ok (resting settings strategies)

/-- The number of cars. -/
def size (f : Fleet) : Nat := f.cars.length

/-- The car with a number. -/
def car? (f : Fleet) (id : Nat) : Except Fault Car :=
  match f.cars[id]? with
  | some c => .ok c
  | none => .error (.unknownElevator id)

/-- The states of all cars. -/
def states (f : Fleet) : List CarState := f.cars.map (·.state)

/-- How long the pending call that has waited longest has been waiting. -/
def oldestWait? (f : Fleet) : Option Duration := (f.pool.oldestWait? f.clock).map (⟨·⟩)

/-- Puts a car in the place of the one with its number. -/
def setCar (f : Fleet) (id : Nat) (c : Car) : Fleet := { f with cars := f.cars.set id c }

/-- Does something with one car. -/
def onCar {α : Type} (f : Fleet) (id : Nat) (operation : Car → Attempt Car α) : Attempt Fleet α :=
  match f.cars[id]? with
  | none => (.error (.unknownElevator id), f)
  | some c =>
      let (result, c) := operation c
      (result, f.setCar id c)

/-- Hands a call to a car, or puts it into the pool. -/
def dispatch (f : Fleet) (r : Request) : Attempt Fleet Assignment :=
  match Request.checked r.floor r.call f.settings.height with
  | .error fault => (.error fault, f)
  | .ok r =>
      let (result, cars, pool) := Dispatch.run f.strategies.dispatch f.cars f.pool r f.clock
      (result, { f with cars, pool })

/-- Whether a floor has no such button: the top floor none for up, the ground floor none for
down. -/
def lacksButton (f : Fleet) (floor : Floor) (call : Call) : Bool :=
  match call with
  | .up => floor.val + 1 = f.settings.height.val
  | .down => floor.val = 0

/-- Presses a button. -/
def press (f : Fleet) (floor : Floor) (goingUp : Bool) : Attempt Fleet Assignment :=
  match Request.checked floor (.ofUp goingUp) f.settings.height with
  | .error fault => (.error fault, f)
  | .ok r =>
      if f.lacksButton r.floor r.call then
        (.error (.invalidSetting .call (.noButton r.call r.floor)), f)
      else f.dispatch r

/-- Hands pending calls to a car, seen from a floor, and says whether any were. -/
def backfill (f : Fleet) (id : Nat) (floor : Floor) : Attempt Fleet Bool :=
  match f.cars[id]? with
  | none => (.error (.unknownElevator id), f)
  | some c =>
      let (result, c, pool) := Backfill.run f.strategies.backfill floor c f.pool
      (result, { f.setCar id c with pool })

/-- Tells one worker to stop after its current step. -/
def stop (f : Fleet) (id : Nat) : Attempt Fleet Unit := f.onCar id fun c => (.ok (), c.stop)

/-- Tells every worker to stop after its current step. -/
def stopAll (f : Fleet) : Fleet := { f with cars := f.cars.map Car.stop }

/-- Forgets every pending call and puts all cars back to rest. -/
def reset (f : Fleet) : Fleet := { f with cars := f.cars.map Car.reset, pool := .empty }

end Fleet

end ElevatorFleet
