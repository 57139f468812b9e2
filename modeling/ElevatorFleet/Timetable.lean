import ElevatorFleet.Shift

/-!
A fleet at work on a clock.

* Passing a floor and keeping the doors open take time, during which a worker pauses; everything
  else takes none. A worker that waits is woken by its token, or once its car has been idle for its
  timeout. The timeout of a car at home changes nothing and is passed over.
* `Timetable.next?` is the worker whose turn comes first, of several the one with the lowest number,
  and `Timetable.step` moves the clock to that turn and takes it.
* `Timetable.run` takes turns until a given time, or until enough has happened.
-/

namespace ElevatorFleet

/-- A fleet at work, the times at which the pauses of its workers end, and the times since when its
cars have been idle. All times are in nanoseconds. -/
structure Timetable (σ : Type) where
  world : World σ
  readyAt : List Nat
  idleSince : List Nat

namespace Timetable

variable {σ : Type}

/-- The time on the clock. -/
def clock (t : Timetable σ) : Nat := t.world.fleet.clock

/-- Starts the workers of a fleet. -/
def start (w : World σ) : Timetable σ :=
  let now := w.fleet.cars.map fun _ => w.fleet.clock
  ⟨w.start, now, now⟩

/-- Moves the clock forward to a time. -/
def wait (t : Timetable σ) (time : Nat) : Timetable σ :=
  { t with world := { t.world with fleet :=
    { t.world.fleet with clock := max t.clock time } } }

/-- When the car of a waiting worker is woken. -/
def wakesAt? (t : Timetable σ) (id : Nat) (c : Car) : Option Nat :=
  if c.token then some t.clock
  else if c.isAstray then t.idleSince[id]?.map (· + c.settings.idleTimeout.nanos)
  else none

/-- When the turn of a worker comes, if it comes. -/
def dueAt? (t : Timetable σ) (id : Nat) : Option Nat :=
  match t.world.workers[id]?, t.world.fleet.cars[id]? with
  | some (.halted _), _ => none
  | some .finished, _ => none
  | some .waiting, some c => t.wakesAt? id c
  | some _, some _ => t.readyAt[id]?
  | _, _ => none

/-- The earlier of two turns, given as a worker and a time; the first one if they are at the same
time. -/
def earlier (best : Option (Nat × Nat)) (turn : Nat × Nat) : Option (Nat × Nat) :=
  match best with
  | some b => if turn.2 < b.2 then some turn else some b
  | none => some turn

/-- The worker whose turn comes first, and the time of that turn. -/
def next? (t : Timetable σ) : Option (Nat × Nat) :=
  ((List.range t.world.workers.length).filterMap fun id => (t.dueAt? id).map (id, ·)).foldl
    earlier none

/-- How long a worker pauses between two phases. -/
def pause (c : Car) : Phase → Phase → Nat
  | .moving, .starting => c.settings.timePerFloor.nanos
  | .opening, .exchanging _ => c.settings.doorTime.nanos
  | _, _ => 0

/-- Whether going from one phase to another starts the idle time of a car again. -/
def restartsIdling : Phase → Phase → Bool
  | .moving, .starting => true
  | .recalling _ _, .starting => true
  | .returning, .starting => true
  | _, _ => false

/-- Takes the turn of a worker at a time. -/
def step (k : Nat → Keeper σ) (t : Timetable σ) (id time : Nat) : Timetable σ :=
  let t := t.wait time
  match t.world.workers[id]?, t.world.fleet.cars[id]? with
  | some before, some c =>
      let expired := t.idleSince.getD id 0 + c.settings.idleTimeout.nanos ≤ t.clock
      let world := t.world.step (k t.clock) expired id
      let after := world.workers.getD id .finished
      let resumes := t.clock + pause c before after
      { world
        readyAt := t.readyAt.set id resumes
        idleSince := if restartsIdling before after then t.idleSince.set id resumes
          else t.idleSince }
  | _, _ => t

/-- Takes up to `fuel` turns, none of them later than `until?`, for as long as it is not enough. -/
def run (k : Nat → Keeper σ) (until? : Option Nat) (enough : World σ → Bool) :
    (fuel : Nat) → Timetable σ → Timetable σ
  | 0, t => t
  | fuel + 1, t =>
      if enough t.world then t
      else
        match t.next? with
        | none => t
        | some (id, time) =>
            if until?.any (· < time) then t else run k until? enough fuel (t.step k id time)

/-- The number of turns after which a fleet that has not come to rest is left as it is. -/
def patience : Nat := 1000000

/-- Whether a car and its worker have nothing left to do: the worker has ended, the car has been
told to stop, or it has settled. -/
def isDone (fleet : Fleet) : Phase → Car → Bool
  | .halted _, _ => true
  | .finished, _ => true
  | _, c => !c.running || fleet.isSettled c

/-- Takes turns until nobody has anything left to do. -/
def settle (k : Nat → Keeper σ) (t : Timetable σ) : Timetable σ :=
  t.run k none (fun w => (w.workers.zipWith (isDone w.fleet) w.fleet.cars).all id) patience

/-- Tells all workers to stop and takes turns until they have. -/
def finish (k : Nat → Keeper σ) (t : Timetable σ) : Timetable σ :=
  let world := { t.world with fleet := t.world.fleet.stopAll }
  { t with world }.run k none (fun _ => false) patience

end Timetable

end ElevatorFleet
