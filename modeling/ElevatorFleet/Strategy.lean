/-!
The two choices that govern a fleet: who gets a fresh hall call, and which pending calls a car
takes over once it has run out of work.

* `DispatchRule` and `BackfillRule` are the choices, `Strategies` a pair of them.
* `name` is the configured spelling and `label` the one shown in reports.
-/

namespace ElevatorFleet

/-- Who is asked first to take a fresh hall call. -/
inductive DispatchRule where
  /-- Cars under way that pass the floor, then idle ones. -/
  | firstCapableThenIdle
  /-- Idle cars, then those under way. -/
  | idleFirstThenCapable
  deriving DecidableEq, Repr

/-- Which pending calls a car takes over. -/
inductive BackfillRule where
  /-- The farthest call, then whatever lies on the way. -/
  | farthestFirst
  /-- The calls on the side where more are waiting. -/
  | densityBased
  deriving DecidableEq, Repr

namespace DispatchRule

/-- The configured spelling. -/
def name : DispatchRule → String
  | firstCapableThenIdle => "first_capable_then_idle"
  | idleFirstThenCapable => "idle_first_then_capable"

/-- The spelling in reports. -/
def label : DispatchRule → String
  | firstCapableThenIdle => "first-capable-then-idle"
  | idleFirstThenCapable => "idle-first-then-capable"

/-- Reads the configured spelling. -/
def ofName? (s : String) : Option DispatchRule :=
  [firstCapableThenIdle, idleFirstThenCapable].find? (·.name == s)

end DispatchRule

namespace BackfillRule

/-- The configured spelling. -/
def name : BackfillRule → String
  | farthestFirst => "farthest_first"
  | densityBased => "density_based"

/-- The spelling in reports. -/
def label : BackfillRule → String
  | farthestFirst => "farthest-first"
  | densityBased => "density-based"

/-- Reads the configured spelling. -/
def ofName? (s : String) : Option BackfillRule :=
  [farthestFirst, densityBased].find? (·.name == s)

end BackfillRule

/-- The rules a fleet runs under. -/
structure Strategies where
  dispatch : DispatchRule
  backfill : BackfillRule
  deriving DecidableEq, Repr

namespace Strategies

/-- The pair used where nothing else is asked for. -/
def standard : Strategies := ⟨.firstCapableThenIdle, .farthestFirst⟩

/-- The two pairs a simulation compares unless told otherwise. -/
def defaults : List Strategies := [standard, ⟨.idleFirstThenCapable, .densityBased⟩]

/-- The pair as reports show it. -/
def label (s : Strategies) : String := s!"{s.dispatch.label} / {s.backfill.label}"

end Strategies

end ElevatorFleet
