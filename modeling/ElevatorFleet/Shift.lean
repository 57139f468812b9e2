import ElevatorFleet.Worker

/-!
One worker at work while all other cars stand still.

* A shift ends when nothing is left to do, or after a given number of movement steps: the car is
  then told to stop, and finishes what belongs to the step.
* Commands from outside can be laid down for any step. They are carried out right after the car has
  moved, before what follows from its move.
* A car that is neither idle nor heading for a floor would wait for ever, and works no shift.
-/

namespace ElevatorFleet

namespace Car

/-- Whether the car goes home as soon as it is idle: its idle timeout is below one second. -/
def isImpatient (c : Car) : Bool := c.settings.idleTimeout.nanos < Duration.perSecond

/-- Whether the car is neither idle nor heading for a floor. -/
def isStranded (c : Car) : Bool := !c.state.isIdle && c.state.stops.isEmpty

/-- Whether the car is where it stays unless somebody calls: idle with nothing queued, and at home
if it is impatient. -/
def isSettled (c : Car) : Bool :=
  c.state.isIdle && c.state.stops.isEmpty &&
    (!c.isImpatient || c.state.floor = c.settings.defaultFloor)

end Car

namespace Fleet

/-- Whether a car has nothing left to do and no call is pending. -/
def isSettled (f : Fleet) (c : Car) : Bool := c.isSettled && f.pool.isEmpty

end Fleet

/-- When a shift ends, and what is commanded during it: pairs of a movement step, counted from one,
and a command. -/
structure Shift where
  stopAfter : Nat
  commands : List (Nat × Command)

namespace Shift

variable {σ : Type}

/-- Carries out the commands for a step in the order in which they are listed. -/
def interrupt (enter : Floor → Floor → σ → Attempt σ RiderId) (step : Nat) (w : World σ)
    (commands : List (Nat × Command)) : World σ :=
  let carryOut (w : World σ) : Nat × Command → World σ
    | (due, command) =>
        if due = step then
          let (reply, w) := w.obey enter command
          w.note (.commanded command reply)
        else w
  commands.foldl carryOut w

/-- What follows the `step`-th movement of a car: its commands, and the order to stop if it was the
last. -/
def afterMove (s : Shift) (enter : Floor → Floor → σ → Attempt σ RiderId) (id step : Nat)
    (w : World σ) : World σ :=
  let w := interrupt enter step w s.commands
  if step = s.stopAfter then { w with fleet := (w.fleet.stop id).2 } else w

/-- Takes up to `fuel` steps of the worker of a car that has moved `moved` times. -/
def steps (s : Shift) (k : Keeper σ) (enter : Floor → Floor → σ → Attempt σ RiderId) (id : Nat) :
    (fuel moved : Nat) → World σ → World σ
  | 0, _, w => w
  | fuel + 1, moved, w =>
      match w.workers[id]?, w.fleet.cars[id]? with
      | some .starting, some c =>
          let w := if c.running && w.fleet.isSettled c then
              { w with fleet := (w.fleet.stop id).2 }
            else w
          steps s k enter id fuel moved (w.step k c.isImpatient id)
      | some .moving, some c =>
          let w := w.step k c.isImpatient id
          match w.workers[id]? with
          | some (.halted _) => w
          | _ => steps s k enter id fuel (moved + 1) (s.afterMove enter id (moved + 1) w)
      | some .waiting, some c =>
          if c.token || c.isImpatient then
            steps s k enter id fuel moved (w.step k c.isImpatient id)
          else w
      | some (.halted _), _ => w
      | some .finished, _ => w
      | some _, some c => steps s k enter id fuel moved (w.step k c.isImpatient id)
      | _, _ => w

/-- More steps than a shift can take. Between two movements a worker goes through at most two
rounds, and no round has more than eight steps. -/
def fuel (s : Shift) : Nat := 16 * (s.stopAfter + 10000)

/-- A shift of one car. The fault is that there is no such car; the answer is whether there was
anything to do, which there is not for a stranded car. -/
def run (s : Shift) (k : Keeper σ) (enter : Floor → Floor → σ → Attempt σ RiderId) (id : Nat)
    (w : World σ) : Attempt (World σ) Bool :=
  match w.fleet.cars[id]? with
  | none => (.error (.unknownElevator id), w)
  | some c =>
      if c.isStranded then (.ok false, w)
      else
        let workers := (w.fleet.cars.map fun _ => Phase.finished).set id .starting
        (.ok true, (steps s k enter id s.fuel 0 { w with workers }).join)

end Shift

end ElevatorFleet
