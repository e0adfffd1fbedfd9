import StallRecovery.Machine.Run
import StallRecovery.Simulation

/-!
# Replays

A replay plays a scenario against a machine and nothing else. There is no monitor, no queue, no
radio and no task: what the guards read is told by the steps that have been played. At each instant
of the scenario its changes come first, and then the machine is fed whatever is reported, except for
what was reported just before. Between the instants it looks at its re-check whenever that has come.

It is what a simulation is meant to come to, said without the parts that a simulation is made of.
-/

namespace StallRecovery

/-- The steps of a scenario, those of one time together. -/
def Scenario.instants (s : Scenario) : List (List Scenario.Step) :=
  s.steps.splitBy (·.atMs == ·.atMs)

/-- What the guards read once these steps have been played: of each kind the last change counts. -/
def Scenario.readingsAfter (initialSignal : UInt8) (played : List Scenario.Step) : Readings where
  signal :=
    if (played.filterMap (·.signalUnavailable)).getLast? = some true then .error "simulated outage"
    else .ok ((played.filterMap (·.signal)).getLast?.getD initialSignal)
  call := .ok (if (played.filterMap (·.inCall)).getLast? = some true then .active else .idle)

/-- A scenario on its way through a machine. -/
structure Replay where
  initialSignal : UInt8
  /-- The steps whose changes have come. -/
  played : List Scenario.Step
  /-- What was reported last, if anything was. -/
  reported : Option Bool
  machine : Machine
  /-- The actions to carry out, each with its instant. -/
  dispatches : List (Nat × Action)
  /-- The failures to surface. -/
  failures : List Fault

namespace Replay

/-- What the guards read. -/
def readings (r : Replay) : Readings := Scenario.readingsAfter r.initialSignal r.played

/-- Feeds the machine, and notes what there is to do. -/
def feed (now : Nat) (input : Input) (r : Replay) : Replay :=
  let (machine, out) := r.machine.step ⟨input, now, r.readings⟩
  { r with
    machine
    dispatches := r.dispatches ++ (out.dispatch.map (now, ·)).toList
    failures := r.failures ++ out.failure.toList }

/-- Before the first step. Settings that do not describe a policy are refused at once. -/
def start (settings : Settings) (initialSignal : UInt8) : Replay :=
  let policy := settings.toPolicy
  let fresh : Replay := ⟨initialSignal, [], none, .start policy, [], []⟩
  match policy with
  | .ok _ => fresh
  | .error fault => fresh.feed 0 (.refuse fault)

/-- Reports a status, unless it is the one that was reported last. -/
def tell (now : Nat) (r : Replay) (valid : Bool) : Replay :=
  if r.reported = some valid then r
  else { r.feed now (.validation valid) with reported := some valid }

/-- Looks at the re-check whenever it falls due before `target`. A machine that waits no time would
do so for ever, and is left. -/
def fireUntil (target : Nat) (r : Replay) : Replay :=
  match _hd : r.machine.state.deadline with
  | none => r
  | some due =>
    if _hdue : due < target then
      if _hlater : (r.feed due .recheck).machine.state.deadline.all (due < ·) then
        (r.feed due .recheck).fireUntil target
      else r.feed due .recheck
    else r
termination_by r.machine.state.deadline.elim 0 (target - ·)
decreasing_by
  rw [_hd]
  cases hnext : (r.feed due .recheck).machine.state.deadline with
  | none => exact Nat.sub_pos_of_lt _hdue
  | some next =>
      have hlt : due < next := by simpa [hnext] using _hlater
      exact Nat.sub_lt_sub_left _hdue hlt

/-- The guards notice all these steps. -/
def tune (steps : List Scenario.Step) (r : Replay) : Replay :=
  { r with played := r.played ++ steps }

/-- Plays the steps of one time. -/
def instant (r : Replay) (steps : List Scenario.Step) : Replay :=
  match steps with
  | [] => r
  | s :: _ =>
    let now := milliseconds s.atMs
    (steps.filterMap (·.validation)).foldl (tell now) ((r.fireUntil now).tune steps)

/-- What there is to report. -/
def toReport (r : Replay) : Report := ⟨r.dispatches, r.failures, r.machine.snapshot⟩

end Replay

/-- Replays a scenario under these settings. -/
def Scenario.replay (settings : Settings) (s : Scenario) : Replay :=
  (s.instants.foldl Replay.instant (.start settings s.initialSignal)).fireUntil
    (milliseconds s.endMs)

end StallRecovery
