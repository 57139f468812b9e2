import ElevatorFleet.Direction

/-!
The floors a car is going to stop at, in the order in which its sweep meets them.

* `Stops.insert` adds a floor and puts the queue back into sweep order; a floor that is queued
  already changes nothing, not even the order.
* `Stops.OrderedFor` says that a sweep meets the queued floors one after the other, none twice.
* `mem_insert`, `insert_of_mem` and `floors_insert` say what a queue holds after an insertion.
-/

namespace ElevatorFleet

/-- The floors queued for a car, the next one first. -/
structure Stops where
  floors : List Floor
  deriving DecidableEq, Repr

namespace Stops

/-- No floor at all. -/
def empty : Stops := ⟨[]⟩

/-- Whether nothing is queued. -/
def isEmpty (q : Stops) : Bool := q.floors.isEmpty

/-- Whether a floor is queued. -/
def contains (q : Stops) (floor : Floor) : Bool := q.floors.contains floor

/-- The number of queued floors. -/
def size (q : Stops) : Nat := q.floors.length

/-- The floor that comes next. -/
def head? (q : Stops) : Option Floor := q.floors.head?

/-- The floor that comes last. -/
def last? (q : Stops) : Option Floor := q.floors.getLast?

/-- The queue without the floor that comes next. -/
def tail (q : Stops) : Stops := ⟨q.floors.tail⟩

/-- The queue in the order of a sweep in direction `d`. -/
def reorder (q : Stops) (d : Direction) : Stops :=
  ⟨q.floors.mergeSort fun a b => !decide (d.Precedes b a)⟩

/-- Queues a floor for a sweep in direction `d`. -/
def insert (q : Stops) (floor : Floor) (d : Direction) : Stops :=
  if q.contains floor then q else reorder ⟨q.floors ++ [floor]⟩ d

/-- A sweep in direction `d` meets each queued floor before the ones behind it. -/
def OrderedFor (q : Stops) (d : Direction) : Prop := q.floors.Pairwise d.Precedes

instance (q : Stops) (d : Direction) : Decidable (q.OrderedFor d) := by
  unfold OrderedFor; infer_instance

/-- The queue in brackets, such as `[3,7]`. -/
def text (q : Stops) : String :=
  "[" ++ String.intercalate "," (q.floors.map fun floor => toString floor.val) ++ "]"

/-! ### What a queue holds after an insertion -/

theorem insert_of_mem {q : Stops} {floor : Floor} (h : floor ∈ q.floors) (d : Direction) :
    q.insert floor d = q := by
  simp [insert, contains, h]

/-- A new floor joins the others, whatever the order. -/
theorem floors_insert {q : Stops} {floor : Floor} (h : floor ∉ q.floors) (d : Direction) :
    (q.insert floor d).floors.Perm (floor :: q.floors) := by
  simp only [insert, contains, List.contains_iff_mem, h, if_false, reorder]
  exact (List.mergeSort_perm _ _).trans List.perm_append_comm

@[simp] theorem mem_insert {q : Stops} {floor other : Floor} {d : Direction} :
    other ∈ (q.insert floor d).floors ↔ other = floor ∨ other ∈ q.floors := by
  by_cases h : floor ∈ q.floors
  · rw [insert_of_mem h]
    exact ⟨Or.inr, by rintro (rfl | h') <;> assumption⟩
  · rw [(floors_insert h d).mem_iff, List.mem_cons]

end Stops

end ElevatorFleet
