import StallRecovery.Event

/-!
# The recovery machine

All decisions are taken by one pure machine. It is fed validation reports, expiries of its own
re-check, replaced and refused policies and failed actions, each with the instant and with what the
guards would answer then; it gives back its next state and what to do about it.

* At the **baseline** nothing has been tried. A report that the network is not valid, with passing
  guards, opens an episode and performs the first eligible step at once.
* At a **step** each further one waits for the delay of the step before it, whether the decision is
  asked for by the re-check or by a further report.
* A weak signal ends the episode, and so does a report that the network is valid; a call, or a guard
  that does not answer, holds it where it is.

The machine keeps at most one re-check, as an instant. Nothing is remembered beyond `State`, so a
reset cancels the re-check by forgetting the instant.
-/

namespace StallRecovery

/-- What the machine remembers besides its policy. -/
structure State where
  /-- The step last attempted in this episode. -/
  action : Action
  /-- What the last report said about the network. -/
  validated : Bool
  /-- When to look again. -/
  deadline : Option Nat
  /-- When the episode began. -/
  episodeStarted : Option Nat
  /-- When `action` was dispatched. -/
  lastActionAt : Option Nat
deriving DecidableEq

/-- The baseline, with a network taken to be valid. -/
def State.healthy : State where
  action := .baseline
  validated := true
  deadline := none
  episodeStarted := none
  lastActionAt := none

/-- The machine: a policy, if a usable one is loaded, and a state. -/
structure Machine where
  policy : Option Policy
  state : State
deriving DecidableEq

/-- What there is to do after an input. -/
structure Outcome where
  /-- The action to carry out. -/
  dispatch : Option Action := none
  /-- What to report, in order. -/
  events : List Event := []
  /-- The failure to surface. -/
  failure : Option Fault := none
  /-- The sources asked, in order. -/
  asked : List Source := []
deriving DecidableEq

/-- A view of the machine for observers. -/
structure Snapshot where
  action : Action
  timerPending : Bool
  validated : Bool
  episodeStarted : Option Nat
  configured : Bool
deriving DecidableEq

/-- What made the machine decide. -/
inductive Trigger where
  /-- A report that the network is not valid. -/
  | report
  /-- The expiry of the re-check. -/
  | recheck
deriving DecidableEq

namespace State

/-- No step was tried and no episode is open. -/
def isIdle (s : State) : Bool := s.action == .baseline && s.episodeStarted.isNone

/-- Opens an episode unless one is open, and reports it. -/
def openEpisode (now : Nat) (s : State) : State × List Event :=
  match s.episodeStarted with
  | some _ => (s, [])
  | none => ({ s with episodeStarted := some now }, [.episodeStarted])

/-- Back to the baseline. What was reported about the network stays. -/
def reset (reason : ResetReason) (signal : Option UInt8) (now : Nat) (s : State) :
    State × Event :=
  ({ State.healthy with validated := s.validated },
    .reset s.action reason (s.episodeStarted.map (now - ·)) signal)

/-- Whether the delay of the current step has passed. The re-check decides while there is one. -/
def stepElapsed (p : Policy) (now : Nat) (s : State) : Bool :=
  match s.deadline, s.lastActionAt with
  | some d, _ => d ≤ now
  | none, some t => p.delayFor s.action ≤ now - t
  | none, none => true

/-- Holds the episode: a re-check that is still to come stays, and otherwise one is armed. -/
def hold (p : Policy) (reason : HoldReason) (now : Nat) (s : State) : State × Event :=
  let pending := s.deadline.any (now < ·)
  (if pending then s else { s with deadline := some (now + p.delayFor s.action) },
    .held s.action reason)

/-- Performs the next step and waits for its delay. -/
def escalate (p : Policy) (now : Nat) (s : State) : State × Action :=
  let target := p.target s.action
  ({ s with
      action := target
      lastActionAt := some now
      deadline := some (now + p.delayFor target) }, target)

/-- One decision under an active policy. -/
def decide (p : Policy) (trigger : Trigger) (now : Nat) (readings : Readings) (s : State) :
    State × Outcome :=
  let consulted := p.consult readings (s.action == .baseline)
  let asked := consulted.asked
  -- a signal too weak before anything was tried never opens an episode
  let quiet := match consulted.verdict with
    | .weakSignal _ => s.isIdle
    | _ => false
  if quiet then
    ({ s with deadline := none }, { asked })
  else
    let (s, opened) := s.openEpisode now
    match consulted.verdict with
    | .weakSignal level =>
      let (s, closed) := s.reset .weakSignal (some level) now
      (s, { events := opened ++ [closed], asked })
    | .inCall call =>
      let (s, held) := s.hold p (.inCall call) now
      (s, { events := opened ++ [held], asked })
    | .unavailable _ =>
      let (s, held) := s.hold p .guardUnavailable now
      (s, { events := opened ++ [held], asked })
    | .proceed =>
      if s.action != .baseline && trigger == .report && !s.stepElapsed p now then
        (s, { events := opened, asked })
      else
        let (s, target) := s.escalate p now
        (s, { dispatch := some target, events := opened ++ [.actionDispatched target], asked })

end State

namespace Machine

/-- A machine that starts healthy under a policy. -/
def new (p : Policy) : Machine := ⟨some p, .healthy⟩

/-- A machine without a usable policy: it follows reports and does nothing. -/
def unconfigured : Machine := ⟨none, .healthy⟩

/-- The machine started with a policy, or without one if it was refused. -/
def start : Except Fault Policy → Machine
  | .ok p => new p
  | .error _ => unconfigured

/-- What observers see of the machine. -/
def snapshot (m : Machine) : Snapshot where
  action := m.state.action
  timerPending := m.state.deadline.isSome
  validated := m.state.validated
  episodeStarted := m.state.episodeStarted
  configured := m.policy.isSome

/-- Decides, if the policy can act at all. -/
def evaluate (trigger : Trigger) (now : Nat) (readings : Readings) (m : Machine) :
    Machine × Outcome :=
  match m.policy with
  | none => (m, {})
  | some p =>
    if p.isActive then
      let (s, out) := m.state.decide p trigger now readings
      (⟨m.policy, s⟩, out)
    else
      (m, {})

/-- The network was reported valid: the episode, if there is one, is over. -/
def recover (now : Nat) (m : Machine) : Machine × Outcome :=
  if m.state.isIdle then
    (⟨m.policy, { m.state with deadline := none }⟩, {})
  else
    let (s, closed) := m.state.reset .recovered none now
    (⟨m.policy, s⟩, { events := [closed] })

/-- A report about the network. -/
def onValidation (valid : Bool) (now : Nat) (readings : Readings) (m : Machine) :
    Machine × Outcome :=
  let m : Machine := ⟨m.policy, { m.state with validated := valid }⟩
  if valid then m.recover now else m.evaluate .report now readings

/-- An expiry of the re-check; it counts only once the deadline has come. -/
def onRecheck (now : Nat) (readings : Readings) (m : Machine) : Machine × Outcome :=
  if m.state.deadline.any (· ≤ now) then
    let m : Machine := ⟨m.policy, { m.state with deadline := none }⟩
    if m.state.validated then (m, {}) else m.evaluate .recheck now readings
  else
    (m, {})

/-- A new policy replaces the old one. The episode, if there is one, is reset; a network that is
still not valid is looked at again under the new policy. -/
def onReload (p : Policy) (now : Nat) (m : Machine) : Machine × Outcome :=
  let (s, events) :=
    if m.state.isIdle then (m.state, [])
    else
      let (s, closed) := m.state.reset .reconfigured none now
      (s, [closed])
  let deadline :=
    if !s.validated && p.enabled then some (now + p.delayFor .baseline) else none
  (⟨some p, { s with deadline }⟩, { events })

/-- A refused policy is reported and changes nothing. -/
def onRefusal (fault : Fault) (m : Machine) : Machine × Outcome :=
  (m, { events := [.configRejected fault.message], failure := some fault })

/-- A failed action is reported; the step still counts as attempted. -/
def onFailure (action : Action) (fault : Fault) (m : Machine) : Machine × Outcome :=
  (m, { events := [.dispatchFailed action fault.message], failure := some fault })

end Machine

end StallRecovery
