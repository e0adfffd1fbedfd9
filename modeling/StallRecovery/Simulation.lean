import StallRecovery.Deployment
import StallRecovery.Scenario

/-!
# Simulations

A simulation plays a scenario against one controller. At each step the clock is taken to its time,
which lets everything fall due that lies before; then the radio changes, and a validation status is
published through the monitor, which passes on changes only.

Whoever plays the steps and the controller take turns. A turn lasts until an instant has to be
waited for that is still to come, so the steps of one instant follow each other before the
controller handles anything. But a turn does not last for ever: after so many waits that were over
at once, the next one hands over to the controller all the same.

At the end a snapshot is asked for before anything that falls due at that very instant happens, and
then the controller is shut down. What it starts until then still counts.
-/

namespace StallRecovery

/-- The radio of a simulation. -/
structure Radio where
  level : UInt8
  inCall : Bool
  unavailable : Bool
deriving DecidableEq

namespace Radio

/-- The radio before the first step. -/
def initial (level : UInt8) : Radio := ⟨level, false, false⟩

/-- The radio after the changes of a step. -/
def apply (r : Radio) (s : Scenario.Step) : Radio where
  level := s.signal.getD r.level
  inCall := s.inCall.getD r.inCall
  unavailable := s.signalUnavailable.getD r.unavailable

/-- What the guards read off the radio. -/
def readings (r : Radio) : Readings where
  signal := if r.unavailable then .error "simulated outage" else .ok r.level
  call := .ok (if r.inCall then .active else .idle)

end Radio

/-- What happened in a simulation. -/
structure Report where
  /-- The actions started, each with the time since the start. -/
  dispatches : List (Nat × Action)
  /-- The failures surfaced. -/
  failures : List Fault
  /-- The controller at the end. -/
  final : Snapshot

/-- A simulation on its way: the radio, and a deployment of one controller. -/
structure Simulation where
  radio : Radio
  deployment : Deployment
  /-- How many waits have ended in this turn. -/
  waits : Nat

namespace Simulation

/-- How many waits may end in one turn. -/
def turnLength : Nat := 128

/-- Before the first step. Settings that do not describe a policy start a controller without one. -/
def start (settings : Settings) (initialSignal : UInt8) : Simulation :=
  let radio := Radio.initial initialSignal
  let d := { Deployment.empty with readings := radio.readings }
  ⟨radio, (d.start (.complete (.given settings))).1, 0⟩

/-- Waits for an instant. The controller has its turn meanwhile if the instant is still to come, or
if this turn has lasted long enough. -/
def await (target : Nat) (sim : Simulation) : Simulation :=
  if sim.deployment.now < target then
    { sim with deployment := sim.deployment.sleepUntil target, waits := 1 }
  else if sim.waits < turnLength then { sim with waits := sim.waits + 1 }
  else { sim with deployment := sim.deployment.settle, waits := 1 }

/-- The radio changes, and a status is published if there is one. -/
def change (s : Scenario.Step) (sim : Simulation) : Simulation :=
  let radio := sim.radio.apply s
  let d := { sim.deployment with readings := radio.readings }
  match s.validation with
  | none => { sim with radio, deployment := d }
  | some valid => { sim with radio, deployment := (d.publish valid).1 }

/-- Plays one step. -/
def step (sim : Simulation) (s : Scenario.Step) : Simulation :=
  (sim.await (milliseconds s.atMs)).change s

/-- Ends the run: time passes to the end, then the controller is asked for a snapshot and shut
down. -/
def finish (endMs : Nat) (sim : Simulation) : Deployment :=
  let d := (sim.await (milliseconds endMs)).deployment
  let d := (d.modify 0 (·.send .snapshot)).settle
  (d.act (.shutdown 0)).1

/-- What a controller asked for and reported, and its state as last asked for. Whoever is asked to
carry out an action takes it down and does nothing else. -/
def report (c : Controller) : Report where
  dispatches := c.journal.requests.toList.map fun asked => (asked.1, asked.2.action)
  failures := c.journal.failures.toList
  final := c.journal.snapshots.back?.getD c.machine.snapshot

/-- Plays a scenario against a controller under these settings. -/
def run (settings : Settings) (scenario : Scenario) : Report :=
  let sim := scenario.steps.foldl step (start settings scenario.initialSignal)
  let d := sim.finish scenario.endMs
  report (d.controllers.headD (.new settings.toPolicy 0 {}))

end Simulation

end StallRecovery
