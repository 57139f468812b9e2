import ElevatorFleet.Car.Basic
import ElevatorFleet.Pool
import ElevatorFleet.Strategy

/-!
Which pending calls a car takes over.

* `Backfill.farthestFirst` offers the call farthest from a floor, and then all that are left, the
  oldest first.
* `Backfill.densityBased` offers the calls on the side of a floor where more are waiting, the lower
  side on a tie, and only if none of them is taken those for the floor itself.
* `Backfill.run` does nothing on an empty pool; otherwise it says whether anything was taken.
-/

namespace ElevatorFleet

namespace Backfill

/-- Any car may be offered a pending call. -/
def anyCar (_ : CarState) : Bool := true

/-- Offers the calls of the pool that pass a test to a car. -/
def sweep (on : Request → Bool) (c : Car) (pool : Pool) : Attempt (Car × Pool) Nat :=
  let (taken, pool, c) :=
    pool.claim (fun r c => if on r then c.offer anyCar r else (.ok false, c)) c
  (taken, c, pool)

/-- Offers the call farthest from a floor, and says how many were taken. -/
def offerFarthest (floor : Floor) (c : Car) (pool : Pool) : Attempt (Car × Pool) Nat :=
  match pool.farthestFrom? floor with
  | none => (.ok 0, c, pool)
  | some index =>
      match pool.get? index with
      | none => (.ok 0, c, pool)
      | some r =>
          match c.offer anyCar r with
          | (.error fault, c) => (.error fault, c, pool)
          | (.ok true, c) => (.ok 1, c, (pool.remove index).2)
          | (.ok false, c) => (.ok 0, c, pool)

/-- The farthest call first, then whatever the car takes. -/
def farthestFirst (floor : Floor) (c : Car) (pool : Pool) : Attempt (Car × Pool) Nat :=
  match offerFarthest floor c pool with
  | (.error fault, left) => (.error fault, left)
  | (.ok first, c, pool) =>
      let (taken, left) := sweep (fun _ => true) c pool
      (taken.map (first + ·), left)

/-- Whether a call is on the side of a floor where more are waiting. -/
def onBusierSide (floor : Floor) (pool : Pool) (r : Request) : Bool :=
  if pool.countBelow floor < pool.countAbove floor then floor < r.floor else r.floor < floor

/-- The busier side of a floor, or else the floor itself. -/
def densityBased (floor : Floor) (c : Car) (pool : Pool) : Attempt (Car × Pool) Nat :=
  match sweep (onBusierSide floor pool) c pool with
  | (.ok 0, c, pool) => sweep (·.floor = floor) c pool
  | result => result

/-- Hands pending calls to a car by the given rule, and says whether any were. -/
def run (rule : BackfillRule) (floor : Floor) (c : Car) (pool : Pool) :
    Attempt (Car × Pool) Bool :=
  if pool.isEmpty then (.ok false, c, pool)
  else
    let (taken, left) :=
      match rule with
      | .farthestFirst => farthestFirst floor c pool
      | .densityBased => densityBased floor c pool
    (taken.map (0 < ·), left)

end Backfill

end ElevatorFleet
