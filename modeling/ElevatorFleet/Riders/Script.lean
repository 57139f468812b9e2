import ElevatorFleet.Riders.Dialogue

/-!
Riders who follow a script: a keeper whose answers are laid down beforehand.

* The next to board is whoever comes next in the script, on any floor and in any direction.
* Nothing a car does changes where a scripted rider wants to go or whether they have arrived.
-/

namespace ElevatorFleet

/-- A scripted rider. -/
structure ScriptedRider where
  id : RiderId
  destination : Option Floor
  arrived : Bool
  deriving DecidableEq, Repr

/-- The riders of a script, those still to be handed out, and whether somebody always waits to go
up, or down. -/
structure Script where
  riders : List ScriptedRider
  upcoming : List (Option RiderId)
  waitingUp : Bool
  waitingDown : Bool
  deriving DecidableEq, Repr

namespace Script

/-- The rider with a number. Of several entries with one number the last one counts. -/
def rider? (s : Script) (rider : RiderId) : Option ScriptedRider :=
  s.riders.reverse.find? (·.id == rider)

/-- The keeper that follows a script. -/
def keeper : Keeper Script where
  answer
    | .destination rider, s => ((s.rider? rider).bind (·.destination), s)
    | .hasArrived rider, s => ((s.rider? rider).any (·.arrived), s)
    | .next _ _ _, s => (s.upcoming.head?.join, { s with upcoming := s.upcoming.tail })
    | .boarded _ _, s => ((), s)
    | .alighted _ _, s => ((), s)
    | .hasWaiting _ goingUp, s => (if goingUp then s.waitingUp else s.waitingDown, s)

end Script

end ElevatorFleet
