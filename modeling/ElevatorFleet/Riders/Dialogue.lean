import ElevatorFleet.Direction

/-!
The conversation between a car and whoever keeps the riders.

The cars do not keep track of people. What a car wants to know, or has done, it puts to a keeper as
a question, and the keeper's state may change with every answer.

* `Question` lists what can be asked and `Question.Answer` what kind of answer each has.
* `Keeper σ` answers questions from a state `σ`.
* `Dialogue α` is a computation that asks questions on its way to a result. It stands between any
  two questions for everything that can happen there, so several of them can be interleaved.
* `Dialogue.hold` holds a dialogue with a keeper from start to end and records every remark.
-/

namespace ElevatorFleet

/-- What a car can put to the keeper of the riders. -/
inductive Question where
  /-- Where does this rider want to go? -/
  | destination (rider : RiderId)
  /-- Has this rider already arrived? -/
  | hasArrived (rider : RiderId)
  /-- Who on this floor boards next a car going up, or not going up? With nothing queued the first
  in line boards whatever the direction. -/
  | next (floor : Floor) (goingUp queueWasEmpty : Bool)
  /-- This rider has left the floor and boarded. -/
  | boarded (floor : Floor) (rider : RiderId)
  /-- This rider has stepped out on the floor. -/
  | alighted (floor : Floor) (rider : RiderId)
  /-- Is somebody on this floor waiting to go up, or down? -/
  | hasWaiting (floor : Floor) (goingUp : Bool)
  deriving DecidableEq, Repr

/-- The kind of answer a question has. -/
abbrev Question.Answer : Question → Type
  | .destination _ => Option Floor
  | .hasArrived _ => Bool
  | .next _ _ _ => Option RiderId
  | .boarded _ _ => Unit
  | .alighted _ _ => Unit
  | .hasWaiting _ _ => Bool

/-- Somebody who keeps the riders. -/
structure Keeper (σ : Type) where
  answer : (q : Question) → σ → q.Answer × σ

/-- A question and the answer it got. -/
structure Remark where
  question : Question
  answer : question.Answer

/-- A computation that asks questions on its way to a result. -/
inductive Dialogue (α : Type) where
  | done (result : α)
  | ask (question : Question) (next : question.Answer → Dialogue α)

namespace Dialogue

variable {α β σ : Type}

/-- One dialogue after another. -/
def bind : Dialogue α → (α → Dialogue β) → Dialogue β
  | done a, f => f a
  | ask q next, f => ask q fun a => (next a).bind f

instance : Monad Dialogue where
  pure := done
  bind := bind

/-- The result of a dialogue, all that was said, and the state of the keeper after it. -/
structure Held (σ α : Type) where
  result : α
  remarks : List Remark
  keeper : σ

/-- Holds a dialogue with a keeper from start to end. -/
def hold (k : Keeper σ) : Dialogue α → σ → Held σ α
  | done a, s => ⟨a, [], s⟩
  | ask q next, s =>
      let (a, s) := k.answer q s
      let held := (next a).hold k s
      { held with remarks := ⟨q, a⟩ :: held.remarks }

end Dialogue

namespace Keeper

/-- The keeper of a building that nobody uses. -/
def nobody : Keeper Unit where
  answer
    | .destination _, s => (none, s)
    | .hasArrived _, s => (false, s)
    | .next _ _ _, s => (none, s)
    | .boarded _ _, s => ((), s)
    | .alighted _ _, s => ((), s)
    | .hasWaiting _ _, s => (false, s)

end Keeper

end ElevatorFleet
