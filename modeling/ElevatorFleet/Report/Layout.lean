import ElevatorFleet.Number.Fixed
import ElevatorFleet.Report.Basic

/-!
The text of a report: a table of floors from the top down, a table of people, the matrix of rides
and the overall averages. Times have one decimal place.
-/

namespace ElevatorFleet

namespace Report

/-- A time with one decimal place. -/
def time (x : Float) : String := Fixed.text 1 x

/-- A row of cells of ten characters. -/
def row (cells : List String) : String :=
  "| " ++ String.intercalate " | " (cells.map (Column.left 10)) ++ " |"

/-- The line between rows of five cells. -/
def rule : String := "+------------+------------+------------+------------+------------+"

/-- The table of floors, from the top down. -/
def floorLines (r : Report) : List String :=
  ["+---------------------------------------------------------------+",
    "| " ++ Column.left 61 s!"RUN: {r.strategies.label}" ++ " |",
    rule,
    row ["FLOOR", "RIDERS", "AVG WAIT", "MAX WAIT", "AVG RIDE"]]
  ++ r.floors.zipIdx.reverse.flatMap (fun (s, floor) =>
    [rule,
      row [toString floor, toString s.riders, time s.averageWait, time s.maxWait,
        time s.averageRide]])
  ++ [rule, ""]

/-- The table of people. -/
def personLines (r : Report) : List String :=
  [rule, row ["PERSON", "WAIT", "START", "DEST", "RIDE"], rule]
  ++ r.records.map (fun record =>
    row [toString record.id, time record.wait, toString record.start.val,
      toString record.destination.val, time record.ride])
  ++ [rule, ""]

/-- The cell of the matrix for a pair of floors. -/
def cell (ride : Option Float) : String := Column.right 8 ((ride.map time).getD "-")

/-- The matrix of rides. -/
def matrixLines (r : Report) : List String :=
  let heading := (List.range r.rideMatrix.length).map fun floor => Column.right 8 (toString floor)
  ["AVERAGE RIDE TIME (rows: from, columns: to)",
    String.join (Column.right 6 "" :: heading)]
  ++ r.rideMatrix.zipIdx.map (fun (rides, start) =>
    String.join (Column.right 6 (toString start) :: rides.map cell))
  ++ [""]

/-- The overall figures. -/
def summaryLines (r : Report) : List String :=
  [s!"people generated: {r.people}, delivered: {r.delivered}",
    s!"average wait: {time r.averageWait}s, average ride: {time r.averageRide}s"]

/-- The text of a report. -/
def text (r : Report) : String :=
  String.join ((r.floorLines ++ r.personLines ++ r.matrixLines ++ r.summaryLines).map (· ++ "\n"))

end Report

end ElevatorFleet
