import ElevatorFleet.Building.Basic
import ElevatorFleet.Fleet
import ElevatorFleet.Number.Fixed

/-!
The table that shows a fleet while it runs.

* `StatusTable.text` clears the screen below the cursor, draws the table and puts the cursor back to
  where it was, so that the next table is drawn over this one.
* `StatusTable.oldestWait` shows a wait in simulated seconds.
-/

namespace ElevatorFleet

namespace StatusTable

/-- Clears the screen from the cursor down. -/
def clearBelow : String := "\x1b[J"

/-- Moves the cursor up by some lines. -/
def cursorUp (lines : Nat) : String := s!"\x1b[{lines}A"

/-- A wait in whole simulated seconds, or a dash. -/
def oldestWait (wait : Option Duration) (timeScale : Float) : String :=
  match wait with
  | some d => Fixed.text 0 (d.seconds * timeScale) ++ "s"
  | none => "-"

/-- The line between rows. -/
def rule : String :=
  "+------------+------------+------------+------------+------------+--------------+"

/-- A row of cells: all ten characters wide but the last, which has twelve. -/
def row (cells : List String) (last : String) : String :=
  "| " ++ String.intercalate " | " (cells.map (Column.left 10) ++ [Column.left 12 last]) ++ " |"

/-- The figures above the table. -/
def heading (f : Fleet) (waiting delivered : Nat) (timeScale : Float) : String :=
  let oldest := oldestWait f.oldestWait? timeScale
  s!"ELEVATORS   pending: {f.pool.size} (oldest {oldest})   waiting: {waiting}" ++
    s!"   delivered: {delivered}"

/-- The row of a car. -/
def carRow (id : Nat) (s : CarState) : String :=
  row [toString id, s.activity.name, toString s.floor.val, s.direction.name?.getD "-",
    toString s.riders.length] s.stops.text

/-- The lines of the table. -/
def lines (f : Fleet) (b : Building) (timeScale : Float) : List String :=
  ["+------------------------------------------------------------------------------+",
    "| " ++ Column.left 76 (heading f b.numWaiting b.numArrived timeScale) ++ " |",
    rule,
    row ["ID", "STATE", "FLOOR", "DIRECTION", "RIDERS"] "DESTINATIONS",
    rule]
  ++ f.states.mapIdx carRow
  ++ [rule]

/-- The table between the codes that clear the screen and put the cursor back. -/
def text (f : Fleet) (b : Building) (timeScale : Float) : String :=
  let lines := lines f b timeScale
  clearBelow ++ String.join (lines.map (· ++ "\n")) ++ cursorUp lines.length

end StatusTable

end ElevatorFleet
