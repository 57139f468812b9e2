import ElevatorFleet.Main
import ElevatorFleet.Riders.Script
import ElevatorFleet.Proofs.Course
import ElevatorFleet.Proofs.Boarding
import ElevatorFleet.Proofs.CarRules
import ElevatorFleet.Proofs.Takeover
import ElevatorFleet.Proofs.CarRuns
import ElevatorFleet.Proofs.Dispatching
import ElevatorFleet.Proofs.Interleavings
import ElevatorFleet.Proofs.Conservation
import ElevatorFleet.Proofs.Coverage
import ElevatorFleet.Proofs.SweepRuns
import ElevatorFleet.Proofs.Reliability
import ElevatorFleet.Proofs.Handover
import ElevatorFleet.Proofs.Rides
import ElevatorFleet.Proofs.Trips
import ElevatorFleet.Proofs.Backlog
import ElevatorFleet.Proofs.Outlook
import ElevatorFleet.Proofs.SingleCar
import ElevatorFleet.Proofs.Completion
import ElevatorFleet.Proofs.Transcripts
import ElevatorFleet.Proofs.InStep
import ElevatorFleet.Proofs.Overlaps
import ElevatorFleet.Proofs.Outcome
import ElevatorFleet.Proofs.Plans
import ElevatorFleet.Proofs.Acceptance
import ElevatorFleet.Proofs.Assignments
import ElevatorFleet.Proofs.PendingCalls
import ElevatorFleet.Proofs.Refusals
import ElevatorFleet.Proofs.RepeatedCalls
import ElevatorFleet.Proofs.Draws
import ElevatorFleet.Proofs.InPlace
import ElevatorFleet.Proofs.Arguments
import ElevatorFleet.Proofs.Statistics
