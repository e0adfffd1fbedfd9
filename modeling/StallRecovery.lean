import StallRecovery.Directory
import StallRecovery.Machine.Run
import StallRecovery.Main
import StallRecovery.Proofs.Coherence
import StallRecovery.Proofs.Chronicle
import StallRecovery.Proofs.Escalation
import StallRecovery.Proofs.Spacing
import StallRecovery.Proofs.Clearance
import StallRecovery.Proofs.Standstill
import StallRecovery.Proofs.Life
import StallRecovery.Deployment.Run
import StallRecovery.Proofs.Settling
import StallRecovery.Proofs.Recounting
import StallRecovery.Proofs.Refinement
import StallRecovery.Proofs.Ghosts
import StallRecovery.Proofs.Forgetting
import StallRecovery.Proofs.Holding
import StallRecovery.Proofs.Schedule
import StallRecovery.Proofs.Alike
import StallRecovery.Proofs.Observers
import StallRecovery.Monitor.Run
import StallRecovery.Proofs.Delivery
import StallRecovery.Proofs.Enrolment
import StallRecovery.Proofs.Agreement
import StallRecovery.Proofs.Accounts
import StallRecovery.Proofs.Causes
import StallRecovery.Proofs.Errands
import StallRecovery.Proofs.Rehearsal
import StallRecovery.Proofs.Inertia
import StallRecovery.Proofs.Teardown
import StallRecovery.Proofs.Timing
import StallRecovery.Proofs.Slicing
import StallRecovery.Proofs.Acceptance
import StallRecovery.Proofs.Causality
import StallRecovery.Proofs.Reports
import StallRecovery.Proofs.Weakness
import StallRecovery.Proofs.Idling
import StallRecovery.Simulation.Replay
import StallRecovery.Proofs.Showing
import StallRecovery.Proofs.Replaying
import StallRecovery.Proofs.Horizon
import StallRecovery.Proofs.Validation
import StallRecovery.Proofs.RoundTrip
import StallRecovery.Proofs.Legibility
