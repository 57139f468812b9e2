import ElevatorFleet.CommandLine
import ElevatorFleet.Json.Field
import ElevatorFleet.Json.Reader
import ElevatorFleet.Settings
import ElevatorFleet.Strategy

/-!
Configuration files, and the plan for a simulation that one gives.

* `Scenario` holds a configuration file as it is written: times are simulated minutes, seconds and
  milliseconds. `Scenario.ofText?` reads one.
* `Plan` is what a simulation runs: spans of the clock on the wall, which are the simulated ones
  divided by the time scale. `Scenario.plan` checks a scenario and scales it; the first thing wrong
  is what is reported.
* `Plan.load` finds the file that the command line asks for and applies what it overrides.
-/

namespace ElevatorFleet

/-- A configuration file. -/
structure Scenario where
  durationMinutes : Float
  timeScale : Float
  peoplePerMinute : Float
  drainSeconds : Float
  height : Floor
  elevators : Nat
  capacity : Nat
  timePerFloorMs : Nat
  doorTimeMs : Nat
  idleTimeoutMs : Nat
  defaultFloors : List Floor
  startPercentages : List Nat
  destinationPercentages : List Nat
  runs : List Strategies

/-- What a simulation runs. -/
structure Plan where
  fleet : FleetSettings
  traffic : TrafficSettings
  runs : List Strategies
  drain : Duration
  seed : Option Nat := none
  showStatus : Bool := false

/-! ### Reading a file -/

namespace Strategies

/-- Reads a pair of rules: a record of two names. -/
def ofJson? (j : Json) : Option Strategies :=
  match Json.Shape.values? [("dispatch", none), ("backfill", none)] j with
  | some [dispatch, backfill] => do
      pure ⟨← dispatch.choice? DispatchRule.ofName?, ← backfill.choice? BackfillRule.ofName?⟩
  | _ => none

end Strategies

namespace Scenario

/-- Reads a byte: a floor, or a number of floors. -/
def floor? (j : Json) : Option Floor :=
  match j.natural? with
  | some n => if h : n < 256 then some ⟨n, h⟩ else none
  | none => none

/-- Reads a 64-bit count. -/
def count? (j : Json) : Option Nat := j.below? Numeral.wordBound

/-- Reads a percentage, which has 32 bits. -/
def percentage? (j : Json) : Option Nat := j.below? 4294967296

/-- The sections of a file. -/
def sections : Json.Shape :=
  [("simulation", none), ("building", none), ("traffic", none), ("runs", some (.array []))]

/-- The fields of the simulation section. -/
def simulationFields : Json.Shape :=
  [("duration_minutes", none), ("time_scale", none), ("people_per_minute", none),
    ("drain_seconds", some (.number ⟨false, [0], [], none⟩))]

/-- The fields of the building section. -/
def buildingFields : Json.Shape :=
  [("num_floors", none), ("num_elevators", none), ("capacity", none), ("time_per_floor_ms", none),
    ("door_time_ms", none), ("idle_timeout_ms", none), ("default_floors", some (.array []))]

/-- The fields of the traffic section. -/
def trafficFields : Json.Shape :=
  [("start_probabilities", none), ("destination_probabilities", none)]

/-- Reads the four sections. -/
def ofSections? (simulation building traffic runs : Json) : Option Scenario :=
  match simulationFields.values? simulation, buildingFields.values? building,
    trafficFields.values? traffic with
  | some [duration, timeScale, people, drain],
    some [height, elevators, capacity, perFloor, door, idle, defaults],
    some [starts, destinations] => do
      pure {
        durationMinutes := ← duration.float?
        timeScale := ← timeScale.float?
        peoplePerMinute := ← people.float?
        drainSeconds := ← drain.float?
        height := ← floor? height
        elevators := ← count? elevators
        capacity := ← count? capacity
        timePerFloorMs := ← count? perFloor
        doorTimeMs := ← count? door
        idleTimeoutMs := ← count? idle
        defaultFloors := ← defaults.list? floor?
        startPercentages := ← starts.list? percentage?
        destinationPercentages := ← destinations.list? percentage?
        runs := ← runs.list? Strategies.ofJson? }
  | _, _, _ => none

/-- Reads the contents of a file. -/
def ofText? (s : String) : Option Scenario := do
  match sections.values? (← Json.parse? s) with
  | some [simulation, building, traffic, runs] => ofSections? simulation building traffic runs
  | _ => none

/-! ### The plan -/

/-- A number of milliseconds as a double. -/
def millis (n : Nat) : Float := Float.ofScientific n false 0

/-- A simulated time in milliseconds as a span of the clock on the wall. -/
def scaled (setting : Setting) (milliseconds timeScale : Float) : Except Fault Duration :=
  match Duration.ofSeconds? (milliseconds / 1000.0 / timeScale) with
  | some d => .ok d
  | none => .error (.invalidSetting setting .tooLong)

/-- The default floor of every car: the ground floor, the one floor given for all of them, or one
floor each. -/
def restingFloors (s : Scenario) : Except Fault (List Floor) :=
  match s.defaultFloors with
  | [] => .ok (List.replicate s.elevators .ground)
  | [floor] => .ok (List.replicate s.elevators floor)
  | floors =>
      if floors.length = s.elevators then .ok floors
      else .error (.invalidSetting .defaultFloors (.defaultFloorCount s.elevators floors.length))

/-- Refuses numbers that nothing can be scaled by or counted in. -/
def checkNumbers (s : Scenario) : Except Fault Unit :=
  if !s.timeScale.isFinite || s.timeScale ≤ 0.0 then
    .error (.invalidSetting .timeScale .notPositiveNumber)
  else if !(0.0 < s.durationMinutes) then .error (.invalidSetting .durationMinutes .notPositive)
  else if !(0.0 < s.peoplePerMinute) then .error (.invalidSetting .peoplePerMinute .notPositive)
  else if s.drainSeconds < 0.0 then .error (.invalidSetting .drainSeconds .negative)
  else if s.elevators = 0 then .error (.invalidSetting .numElevators .noElevator)
  else .ok ()

/-- The settings of the fleet, checked. -/
def fleet (s : Scenario) : Except Fault FleetSettings := do
  let defaultFloors ← s.restingFloors
  let fleet : FleetSettings := {
    height := s.height
    capacity := s.capacity
    timePerFloor := ← scaled .timePerFloorMs (millis s.timePerFloorMs) s.timeScale
    doorTime := ← scaled .doorTimeMs (millis s.doorTimeMs) s.timeScale
    idleTimeout := ← scaled .idleTimeoutMs (millis s.idleTimeoutMs) s.timeScale
    defaultFloors }
  fleet.check
  pure fleet

/-- The settings of the traffic, checked. -/
def traffic (s : Scenario) : Except Fault TrafficSettings := do
  let traffic : TrafficSettings := {
    duration := ← scaled .durationMinutes (s.durationMinutes * 60000.0) s.timeScale
    spawnInterval := ← scaled .peoplePerMinute (60000.0 / s.peoplePerMinute) s.timeScale
    timeScale := s.timeScale
    startPercentages := s.startPercentages
    destinationPercentages := s.destinationPercentages }
  traffic.check s.height
  pure traffic

/-- The plan that a scenario gives. -/
def plan (s : Scenario) : Except Fault Plan := do
  s.checkNumbers
  let fleet ← s.fleet
  let traffic ← s.traffic
  let drain ← scaled .drainSeconds (s.drainSeconds * 1000.0) s.timeScale
  pure {
    fleet, traffic, drain
    runs := if s.runs.isEmpty then Strategies.defaults else s.runs }

end Scenario

namespace Plan

/-- The plan in the contents of a configuration file. -/
def ofText (contents : String) : Except Fault Plan :=
  match Scenario.ofText? contents with
  | some scenario => scenario.plan
  | none => .error .unparsable

/-- The file that is read when none is asked for. -/
def usualPath : String := "config.json"

/-- The file that is read when the usual one cannot be. -/
def fallbackPath : String := "_config.json"

/-- The files a command line may lead to, the first choice first. -/
def paths (options : Options) : List String :=
  match options.configPath with
  | some path => [path]
  | none => [usualPath, fallbackPath]

/-- The contents of the first of the files that can be read, or else a complaint about the last. -/
def contents (files : String → Option String) (options : Options) : Except Fault String :=
  match (paths options).findSome? files with
  | some text => .ok text
  | none => .error (.unreadable (options.configPath.getD fallbackPath))

/-- The plan that a command line asks for, the files being given by their contents. -/
def load (files : String → Option String) (options : Options) : Except Fault Plan := do
  let text ← contents files options
  match Scenario.ofText? text with
  | none => .error .unparsable
  | some scenario =>
      let scenario := { scenario with timeScale := options.timeScale.getD scenario.timeScale }
      let plan ← scenario.plan
      pure { plan with seed := options.seed, showStatus := options.showStatus }

end Plan

end ElevatorFleet
