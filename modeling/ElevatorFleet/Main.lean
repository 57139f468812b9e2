import ElevatorFleet.Simulation

/-!
The command line program: reads the configuration, runs the simulation and prints its reports.
-/

namespace ElevatorFleet

/-- The contents of a file, if it can be read. -/
def readText? (path : String) : IO (Option String) := do
  try
    pure (some (← IO.FS.readFile path))
  catch _ =>
    pure none

/-- The contents of those among some files that can be read. -/
def readTexts (paths : List String) : IO (List (String × String)) := do
  let mut texts := []
  for path in paths do
    if let some text ← readText? path then
      texts := texts ++ [(path, text)]
  pure texts

/-- A seed for a run that is not given one. -/
def freshSeed : IO UInt64 := do
  pure (← IO.rand 0 (18446744073709551615)).toUInt64

end ElevatorFleet

open ElevatorFleet in
/-- Runs the simulation that the arguments ask for. -/
def main (arguments : List String) : IO UInt32 := do
  let (options, warnings) := Options.ofArguments arguments
  for warning in warnings do
    IO.eprintln warning.message
  let texts ← readTexts (Plan.paths options)
  let seed ← match options.seed with
    | some n => pure n.toUInt64
    | none => freshSeed
  match Plan.load (texts.lookup ·) options >>= fun plan => Simulation.output plan seed with
  | .ok text =>
      IO.print text
      pure 0
  | .error fault =>
      IO.eprintln s!"simulation failed: {fault.message}"
      pure 1
