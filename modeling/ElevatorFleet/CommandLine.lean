import ElevatorFleet.Number.Numeral

/-!
The command line: four flags, three of which take the next argument as their value.

* `Options.ofArguments` reads the arguments from left to right. A later value replaces an earlier
  one; a value that cannot be read is skipped with a warning, and so is an unknown argument.
* The argument after a flag that takes a value is that value, whatever it looks like.
-/

namespace ElevatorFleet

/-- What the command line asks for. -/
structure Options where
  configPath : Option String := none
  timeScale : Option Float := none
  seed : Option Nat := none
  showStatus : Bool := false

/-- The known flags. -/
inductive Flag where
  | status
  | config
  | timeScale
  | seed
  deriving DecidableEq, Repr

/-- Arguments that are skipped. -/
inductive Warning where
  | unknownArgument (argument : String)
  | missingValue (flag : Flag)
  | badValue (flag : Flag) (value : String)
  deriving DecidableEq, Repr

namespace Flag

/-- The spelling of a flag. -/
def name : Flag → String
  | status => "--status"
  | config => "--config"
  | timeScale => "--timescale"
  | seed => "--seed"

/-- Reads the spelling of a flag. -/
def ofName? (s : String) : Option Flag := [status, config, timeScale, seed].find? (·.name == s)

/-- What a flag takes. -/
def valueKind : Flag → String
  | config => "path"
  | _ => "value"

/-- What a flag sets, in words. -/
def subject : Flag → String
  | status => "status"
  | config => "path"
  | timeScale => "timescale"
  | seed => "seed"

end Flag

namespace Warning

/-- The wording of a warning. -/
def message : Warning → String
  | unknownArgument argument => s!"illegal argument {argument}, skipping..."
  | missingValue flag => s!"{flag.name} needs a {flag.valueKind}, skipping..."
  | badValue flag value => s!"{flag.subject} {value} is not a number, skipping..."

end Warning

namespace Options

/-- Sets the value of a flag, if it can be read. Any text is a path. -/
def set? (o : Options) (flag : Flag) (value : String) : Option Options :=
  match flag with
  | .status => some { o with showStatus := true }
  | .config => some { o with configPath := some value }
  | .timeScale => (Numeral.ofText? value).map fun x => { o with timeScale := some x }
  | .seed => (Numeral.natural? value).map fun n => { o with seed := some n }

/-- Reads arguments on top of what earlier ones have set, and lists the warnings in order. -/
def read (o : Options) : List String → Options × List Warning
  | [] => (o, [])
  | argument :: rest =>
      match Flag.ofName? argument with
      | none =>
          let (o, warnings) := o.read rest
          (o, .unknownArgument argument :: warnings)
      | some .status => { o with showStatus := true }.read rest
      | some flag =>
          match rest with
          | [] => (o, [.missingValue flag])
          | value :: rest =>
              match o.set? flag value with
              | some o => o.read rest
              | none =>
                  let (o, warnings) := o.read rest
                  (o, .badValue flag value :: warnings)

/-- What a command line asks for, and the warnings on the way. -/
def ofArguments (arguments : List String) : Options × List Warning := read {} arguments

end Options

end ElevatorFleet
