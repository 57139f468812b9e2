import ElevatorFleet.Request

/-!
Hall calls that nobody could take when they came in, the oldest first.

* Every entry keeps the time at which it came in, so that `Pool.oldestWait?` is the longest wait.
* `Pool.farthestFrom?` finds the call farthest from a floor; of several the oldest is taken.
* `Pool.claim` offers every call in turn to a taker that carries a state of its own, and drops the
  calls it takes. A fault of the taker ends the pass: what was taken before stays taken, and the
  call at fault and those behind it stay in the pool.
-/

namespace ElevatorFleet

/-- A pending call and the time, in nanoseconds, at which it came in. -/
structure Pending where
  request : Request
  since : Nat
  deriving DecidableEq, Repr

/-- The pending calls, the oldest first. -/
structure Pool where
  entries : List Pending
  deriving DecidableEq, Repr

namespace Pool

/-- No pending call. -/
def empty : Pool := ⟨[]⟩

/-- The calls without their times. -/
def requests (p : Pool) : List Request := p.entries.map (·.request)

/-- Adds a call that comes in now. -/
def insert (p : Pool) (r : Request) (now : Nat) : Pool := ⟨p.entries ++ [⟨r, now⟩]⟩

/-- The number of pending calls. -/
def size (p : Pool) : Nat := p.entries.length

/-- Whether no call is pending. -/
def isEmpty (p : Pool) : Bool := p.entries.isEmpty

/-- How long the call that has waited longest has been waiting. -/
def oldestWait? (p : Pool) (now : Nat) : Option Nat := (p.entries.map (now - ·.since)).max?

/-- The better of the best call so far and the call at an index: a call wins only by being farther
away. -/
def farther (floor : Floor) (best : Option (Nat × Nat)) (candidate : Request × Nat) :
    Option (Nat × Nat) :=
  let away := Floor.distance candidate.1.floor floor
  match best with
  | some (index, record) => if away ≤ record then some (index, record) else some (candidate.2, away)
  | none => some (candidate.2, away)

/-- The index of the call farthest from a floor. -/
def farthestFrom? (p : Pool) (floor : Floor) : Option Nat :=
  (p.requests.zipIdx.foldl (farther floor) none).map (·.1)

/-- The call at an index. -/
def get? (p : Pool) (index : Nat) : Option Request := p.entries[index]?.map (·.request)

/-- Takes out the call at an index, if there is one. -/
def remove (p : Pool) (index : Nat) : Option Request × Pool :=
  (p.get? index, ⟨p.entries.eraseIdx index⟩)

/-- The number of calls above a floor. -/
def countAbove (p : Pool) (floor : Floor) : Nat := p.requests.countP (floor < ·.floor)

/-- The number of calls below a floor. -/
def countBelow (p : Pool) (floor : Floor) : Nat := p.requests.countP (·.floor < floor)

/-- Offers entries in turn to a taker. The answer is the number of those it took; behind it are the
entries that are left and the state of the taker. -/
def claimEntries {σ : Type} (take : Request → σ → Attempt σ Bool) :
    List Pending → σ → Except Fault Nat × List Pending × σ
  | [], s => (.ok 0, [], s)
  | e :: es, s =>
      match take e.request s with
      | (.error fault, s) => (.error fault, e :: es, s)
      | (.ok true, s) =>
          let (taken, left, s) := claimEntries take es s
          (taken.map (· + 1), left, s)
      | (.ok false, s) =>
          let (taken, left, s) := claimEntries take es s
          (taken, e :: left, s)

/-- Offers every call in turn to a taker and drops the calls it takes. -/
def claim {σ : Type} (p : Pool) (take : Request → σ → Attempt σ Bool) (s : σ) :
    Except Fault Nat × Pool × σ :=
  let (taken, left, s) := claimEntries take p.entries s
  (taken, ⟨left⟩, s)

end Pool

end ElevatorFleet
