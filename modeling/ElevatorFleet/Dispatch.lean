import ElevatorFleet.Car.Basic
import ElevatorFleet.Pool
import ElevatorFleet.Strategy

/-!
Who gets a fresh hall call.

* A car that is heading for the floor in the direction of the call serves it already.
* Otherwise the cars are asked in the order of their numbers, first one class of them and then the
  other: `DispatchRule.classes` says which class comes first. The first car that takes it has it.
* A call that no car takes waits in the pool.
-/

namespace ElevatorFleet

/-- What became of a hall call. -/
inductive Assignment where
  | alreadyServed (id : Nat)
  | assigned (id : Nat)
  | pending
  deriving DecidableEq, Repr

namespace DispatchRule

/-- The classes of cars in the order in which they are asked. -/
def classes : DispatchRule → List (CarState → Bool)
  | firstCapableThenIdle => [CarState.isActive, CarState.isIdle]
  | idleFirstThenCapable => [CarState.isIdle, CarState.isActive]

end DispatchRule

namespace Dispatch

/-- Offers a call to the eligible cars one after the other until one takes it; the answer is its
number. -/
def firstTaker (eligible : CarState → Bool) (r : Request) :
    List Car → Attempt (List Car) (Option Nat)
  | [] => (.ok none, [])
  | c :: cs =>
      match c.offer eligible r with
      | (.error fault, c) => (.error fault, c :: cs)
      | (.ok true, c) => (.ok (some 0), c :: cs)
      | (.ok false, c) =>
          let (taker, cs) := firstTaker eligible r cs
          (taker.map (·.map (· + 1)), c :: cs)

/-- Asks one class of cars after the other. -/
def taker (r : Request) : List (CarState → Bool) → List Car → Attempt (List Car) (Option Nat)
  | [], cs => (.ok none, cs)
  | eligible :: classes, cs =>
      match firstTaker eligible r cs with
      | (.ok none, cs) => taker r classes cs
      | result => result

/-- Hands a fresh call to a car, or puts it into the pool. -/
def run (rule : DispatchRule) (cars : List Car) (pool : Pool) (r : Request) (now : Nat) :
    Attempt (List Car × Pool) Assignment :=
  match cars.findIdx? (·.isServing r) with
  | some id => (.ok (.alreadyServed id), cars, pool)
  | none =>
      match taker r rule.classes cars with
      | (.error fault, cars) => (.error fault, cars, pool)
      | (.ok (some id), cars) => (.ok (.assigned id), cars, pool)
      | (.ok none, cars) => (.ok .pending, cars, pool.insert r now)

end Dispatch

end ElevatorFleet
