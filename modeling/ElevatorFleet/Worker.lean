import ElevatorFleet.Exchange
import ElevatorFleet.Fleet

/-!
A fleet at work: every car has a worker, and the workers take turns in small steps.

* `Phase` is where a worker is in its round, and `World` the fleet, the riders, the phases of all
  workers and the log.
* `World.step` is one step of one worker. What a step does happens under one lock, so anything else
  can happen between two steps: a step of another worker, or a command from outside.
* A round looks at the running flag and at the queue. With something queued the car moves on, and on
  arrival goes through a door cycle: it opens, exchanges riders, raises again the calls of those
  left behind, and closes. With nothing queued it takes over pending calls; without any it goes
  home once it has been idle for long enough, and otherwise waits for its wake token.
* A fault halts a worker for good.
* `World.obey` carries out a command from outside.
-/

namespace ElevatorFleet

/-- A command from outside. -/
inductive Command where
  | press (floor : Floor) (goingUp : Bool)
  | dispatch (request : Request)
  | enter (start destination : Floor)
  | stop (id : Nat)
  | shutdown
  deriving DecidableEq, Repr

/-- The reply to a command. -/
inductive Reply where
  | assignment (result : Except Fault Assignment)
  | entered (result : Except Fault (RiderId × Except Fault Assignment))
  | done (result : Except Fault Unit)

/-- What happens in a fleet at work. -/
inductive Event where
  | passing (id : Nat) (floor : Floor)
  | arrived (id : Nat) (floor : Floor)
  | opened (id : Nat) (floor : Floor)
  | remark (remark : Remark)
  | exchanged (id : Nat) (floor : Floor) (off on : Nat)
  | leftBehind (id : Nat) (floor : Floor) (request : Request)
  | returning (id : Nat) (floor : Floor)
  | halted (id : Nat) (fault : Fault)
  | commanded (command : Command) (reply : Reply)

/-- The line an event writes into the log, if it writes one. -/
def Event.line? : Event → Option String
  | passing id floor => some s!"elevator {id} passing floor {floor.val}"
  | arrived id floor => some s!"elevator {id} arrived at floor {floor.val}"
  | opened id floor => some s!"elevator {id} opened its doors at floor {floor.val}"
  | exchanged id floor off on => some s!"elevator {id} at floor {floor.val}: {off} off, {on} on"
  | leftBehind id floor request =>
      some s!"elevator {id} left riders behind at floor {floor.val}, calling {request.text} again"
  | returning id floor => some s!"elevator {id} returning to default floor {floor.val}"
  | halted id fault => some s!"elevator {id} halted: {fault.message}"
  | remark _ | commanded _ _ => none

/-- Where a worker is in its round. -/
inductive Phase where
  /-- About to look at the running flag. -/
  | starting
  /-- About to look at the queue. -/
  | looking
  /-- About to move, something having been queued. -/
  | moving
  /-- About to open the doors. -/
  | opening
  /-- The doors have been opened on a floor; the exchange is still to come. -/
  | exchanging (floor : Floor)
  /-- Calls are still to be raised again; without any left the doors close. -/
  | recalling (floor : Floor) (requests : List Request)
  /-- About to take over pending calls, nothing having been queued. -/
  | backfilling
  /-- About to look at the queue again, having taken over pending calls. -/
  | rechecking
  /-- About to look how long the car has been idle. -/
  | idling
  /-- About to go home. -/
  | returning
  /-- Waiting for the wake token. -/
  | waiting
  /-- Halted by a fault. -/
  | halted (fault : Fault)
  /-- Done, the running flag having been found down. -/
  | finished
  deriving DecidableEq, Repr

/-- A fleet at work over the riders of a keeper. The phases of the workers are listed by the numbers
of their cars, and the latest event comes first in the log. -/
structure World (σ : Type) where
  fleet : Fleet
  riders : σ
  workers : List Phase
  log : List Event

namespace World

variable {σ : Type}

/-- A fleet whose workers have not been started. -/
def unstarted (fleet : Fleet) (riders : σ) : World σ := ⟨fleet, riders, [], []⟩

/-- Writes an event into the log. -/
def note (w : World σ) (e : Event) : World σ := { w with log := e :: w.log }

/-- The events so far, in the order in which they happened. -/
def events (w : World σ) : List Event := w.log.reverse

/-- Whether the workers have been started. -/
def isStarted (w : World σ) : Bool := !w.workers.isEmpty

/-- Starts a worker for every car, unless they have been started before. -/
def start (w : World σ) : World σ :=
  if w.isStarted then w else { w with workers := w.fleet.cars.map fun _ => .starting }

/-- Lets go of the workers. -/
def join (w : World σ) : World σ := { w with workers := [] }

/-! ### A door cycle -/

/-- Opens the doors of a car. -/
def openDoors (w : World σ) (id : Nat) : Attempt (World σ) Floor :=
  match w.fleet.onCar id Car.openDoors with
  | (.error fault, fleet) => (.error fault, { w with fleet })
  | (.ok floor, fleet) => (.ok floor, { w with fleet }.note (.opened id floor))

/-- Notes how many riders got off and on, if there were any. -/
def noteExchange (w : World σ) (id : Nat) (floor : Floor) (x : Exchange) : World σ :=
  if x.alighted.isEmpty && x.boarded.isEmpty then w
  else w.note (.exchanged id floor x.alighted.length x.boarded.length)

/-- Exchanges the riders of a car with those of the floor. The answer is the calls to raise
again. -/
def exchange (k : Keeper σ) (w : World σ) (id : Nat) (floor : Floor) :
    Attempt (World σ) (List Request) :=
  match w.fleet.cars[id]? with
  | none => (.error (.unknownElevator id), w)
  | some c =>
      let held := (Exchange.run c.settings.height c.settings.capacity c.state).hold k w.riders
      let w := { w with
        fleet := w.fleet.setCar id { c with state := held.result.2 }
        riders := held.keeper
        log := (held.remarks.map .remark).reverse ++ w.log }
      match held.result.1 with
      | .error fault => (.error fault, w)
      | .ok x => (.ok x.recalls, w.noteExchange id floor x)

/-- Raises a call again for riders left behind. -/
def raiseAgain (w : World σ) (id : Nat) (floor : Floor) (r : Request) :
    Attempt (World σ) Assignment :=
  let w := w.note (.leftBehind id floor r)
  let (result, fleet) := w.fleet.dispatch r
  (result, { w with fleet })

/-- Raises calls again one after the other. -/
def raiseAllAgain (w : World σ) (id : Nat) (floor : Floor) : List Request → Attempt (World σ) Unit
  | [] => (.ok (), w)
  | r :: rs =>
      match w.raiseAgain id floor r with
      | (.error fault, w) => (.error fault, w)
      | (.ok _, w) => w.raiseAllAgain id floor rs

/-- Closes the doors of a car. -/
def closeDoors (w : World σ) (id : Nat) : Attempt (World σ) Unit :=
  let (result, fleet) := w.fleet.onCar id fun c => (.ok (), c.closeDoors)
  (result, { w with fleet })

/-- A whole door cycle without a break. -/
def cycle (k : Keeper σ) (w : World σ) (id : Nat) : Attempt (World σ) Unit :=
  match w.openDoors id with
  | (.error fault, w) => (.error fault, w)
  | (.ok floor, w) =>
      match w.exchange k id floor with
      | (.error fault, w) => (.error fault, w)
      | (.ok recalls, w) =>
          match w.raiseAllAgain id floor recalls with
          | (.error fault, w) => (.error fault, w)
          | (.ok (), w) => w.closeDoors id

/-! ### The steps of a worker -/

/-- Goes on with the answer of an operation, or halts with its fault. -/
def proceed {α : Type} (id : Nat) (next : α → Phase) : Attempt (World σ) α → Phase × World σ
  | (.ok a, w) => (next a, w)
  | (.error fault, w) => (.halted fault, w.note (.halted id fault))

/-- Moves a car, and notes the floor it passes or arrives at. -/
def move (w : World σ) (id : Nat) : Attempt (World σ) Step :=
  match w.fleet.onCar id Car.move with
  | (.error fault, fleet) => (.error fault, { w with fleet })
  | (.ok (.passed floor), fleet) => (.ok (.passed floor), { w with fleet }.note (.passing id floor))
  | (.ok (.arrived floor), fleet) =>
      (.ok (.arrived floor), { w with fleet }.note (.arrived id floor))

/-- Hands pending calls to a car, seen from the floor it stands on. -/
def backfill (w : World σ) (id : Nat) (c : Car) : Attempt (World σ) Bool :=
  let (result, fleet) := w.fleet.backfill id c.state.floor
  (result, { w with fleet })

/-- Sends an idle car home, and notes it. -/
def returnToDefault (w : World σ) (id : Nat) (c : Car) : Attempt (World σ) Bool :=
  match w.fleet.onCar id Car.returnToDefault with
  | (.ok true, fleet) => (.ok true, { w with fleet }.note (.returning id c.settings.defaultFloor))
  | (result, fleet) => (result, { w with fleet })

/-- What the worker of the car `c` with the number `id` does next. Once the car has been idle for
long enough, `expired` holds. -/
def act (k : Keeper σ) (expired : Bool) (id : Nat) (c : Car) (w : World σ) :
    Phase → Phase × World σ
  | .starting => (if c.running then .looking else .finished, w)
  | .looking => (if c.hasStops then .moving else .backfilling, w)
  | .moving =>
      proceed id (fun | .passed _ => .starting | .arrived _ => .opening) (w.move id)
  | .opening => proceed id .exchanging (w.openDoors id)
  | .exchanging floor => proceed id (.recalling floor) (w.exchange k id floor)
  | .recalling floor (r :: rs) =>
      proceed id (fun _ => .recalling floor rs) (w.raiseAgain id floor r)
  | .recalling _ [] => proceed id (fun _ => .starting) (w.closeDoors id)
  | .backfilling => proceed id (fun any => if any then .rechecking else .idling) (w.backfill id c)
  | .rechecking => (if c.hasStops then .starting else .idling, w)
  | .idling => (if expired then .returning else .waiting, w)
  | .returning => proceed id (fun _ => .starting) (w.returnToDefault id c)
  | .waiting =>
      let (woken, c) := c.takeToken
      (if woken || expired then .starting else .waiting, { w with fleet := w.fleet.setCar id c })
  | .halted fault => (.halted fault, w)
  | .finished => (.finished, w)

/-- One step of one worker. -/
def step (k : Keeper σ) (expired : Bool) (id : Nat) (w : World σ) : World σ :=
  match w.workers[id]?, w.fleet.cars[id]? with
  | some phase, some c =>
      let (phase, w) := w.act k expired id c phase
      { w with workers := w.workers.set id phase }
  | _, _ => w

/-! ### Commands from outside -/

/-- Presses a button. -/
def press (w : World σ) (floor : Floor) (goingUp : Bool) : Attempt (World σ) Assignment :=
  let (result, fleet) := w.fleet.press floor goingUp
  (result, { w with fleet })

/-- Raises a call. -/
def dispatch (w : World σ) (r : Request) : Attempt (World σ) Assignment :=
  let (result, fleet) := w.fleet.dispatch r
  (result, { w with fleet })

/-- Lets a rider in, who presses the button for where they want to go. -/
def enter (enter : Floor → Floor → σ → Attempt σ RiderId) (w : World σ)
    (start destination : Floor) : Attempt (World σ) (RiderId × Except Fault Assignment) :=
  match enter start destination w.riders with
  | (.error fault, riders) => (.error fault, { w with riders })
  | (.ok rider, riders) =>
      let (pressed, w) := { w with riders }.press start (start < destination)
      (.ok (rider, pressed), w)

/-- Carries out a command; `enter` lets a rider in. -/
def obey (enter : Floor → Floor → σ → Attempt σ RiderId) (w : World σ) :
    Command → Reply × World σ
  | .press floor goingUp => let (r, w) := w.press floor goingUp; (.assignment r, w)
  | .dispatch request => let (r, w) := w.dispatch request; (.assignment r, w)
  | .enter start destination => let (r, w) := w.enter enter start destination; (.entered r, w)
  | .stop id => let (r, fleet) := w.fleet.stop id; (.done r, { w with fleet })
  | .shutdown => (.done (.ok ()), { w with fleet := w.fleet.stopAll })

end World

end ElevatorFleet
