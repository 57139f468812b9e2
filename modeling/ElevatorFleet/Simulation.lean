import ElevatorFleet.Report.Layout
import ElevatorFleet.Scenario
import ElevatorFleet.StatusTable
import ElevatorFleet.Timetable
import ElevatorFleet.Traffic.ChaCha

/-!
Simulation runs, one for each pair of rules of a plan.

* A run starts on an empty building with every car at home. Riders appear one interval apart for as
  long as the plan says; their trips are drawn from the seed, so every run sees the same ones.
* After the last rider the run goes on until everybody has arrived, or the time to drain is over.
  The workers then finish their current steps.
* `Simulation.output` is all that the runs print: the status tables, if they are asked for, and
  behind them the reports.
-/

namespace ElevatorFleet

namespace Simulation

/-- The number of riders: one at the start, and one more after each interval that ends before the
time is over. -/
def riderCount (s : TrafficSettings) : Nat :=
  let interval := max 1 s.spawnInterval.nanos
  (s.duration.nanos + interval - 1) / interval

/-- Takes turns up to a time and moves the clock there. -/
def runUntil (time : Nat) (t : Timetable Building) : Timetable Building :=
  (t.run Building.keeper (some time) (fun _ => false) Timetable.patience).wait time

/-- Lets a rider in on a building and has the button pressed. A button that is refused is no fault
of the run. -/
def spawn (trip : Floor × Floor) (t : Timetable Building) : Except Fault (Timetable Building) :=
  let now := t.clock
  match t.world.enter (fun start destination b => b.enter start destination now)
    trip.1 trip.2 with
  | (.error fault, _) => .error fault
  | (.ok _, world) => .ok { t with world }

/-- Lets riders in one after the other, and lets an interval pass after each. -/
def spawnAll (interval : Nat) : List (Floor × Floor) → Timetable Building →
    Except Fault (Timetable Building)
  | [], t => .ok t
  | trip :: trips, t =>
      match spawn trip t with
      | .error fault => .error fault
      | .ok t => spawnAll interval trips (runUntil (t.clock + interval) t)

/-- What a run leaves behind. -/
structure Outcome where
  fleet : Fleet
  building : Building
  report : Report

/-- One run under a pair of rules. -/
def run (plan : Plan) (seed : UInt64) (strategies : Strategies) : Except Fault Outcome :=
  match Fleet.make plan.fleet strategies with
  | .error fault => .error fault
  | .ok fleet =>
      let tables := Tables.ofPercentages plan.traffic.startPercentages
        plan.traffic.destinationPercentages
      let trips := tables.trips (ChaCha.rolls (ChaCha.keyOfSeed seed)) (riderCount plan.traffic) 0
      let started := Timetable.start (.unstarted fleet (.vacant plan.fleet.height))
      match spawnAll plan.traffic.spawnInterval.nanos trips started with
      | .error fault => .error fault
      | .ok t =>
          let deadline := t.clock + plan.drain.nanos
          let drained := t.run Building.keeper (some deadline) (·.riders.allArrived)
            Timetable.patience
          let world := (drained.finish Building.keeper).world
          let records := world.riders.records plan.traffic.timeScale world.fleet.clock
          .ok ⟨world.fleet, world.riders,
            .make strategies plan.fleet.height trips.length records⟩

/-- Runs under one pair of rules after the other, up to the first fault. -/
def runAll (plan : Plan) (seed : UInt64) : List Strategies → Except Fault (List Outcome)
  | [] => .ok []
  | strategies :: rest =>
      match run plan seed strategies with
      | .error fault => .error fault
      | .ok outcome => (runAll plan seed rest).map (outcome :: ·)

/-- The status table of a run, on a line of its own. -/
def statusText (plan : Plan) (o : Outcome) : String :=
  StatusTable.text o.fleet o.building plan.traffic.timeScale ++ "\n"

/-- All that the runs of a plan print. -/
def output (plan : Plan) (seed : UInt64) : Except Fault String :=
  (runAll plan seed plan.runs).map fun outcomes =>
    let status := if plan.showStatus then outcomes.map (statusText plan) else []
    String.join (status ++ outcomes.map fun o => o.report.text ++ "\n")

end Simulation

end ElevatorFleet
