import StallRecovery.Action
import StallRecovery.Clock

/-!
# Recovery policies

A policy says, for each step of the ladder, how long to wait after it and whether it is left out;
below which signal level recovery gives up; which transitions a voice call holds; and whether
recovery acts at all. It has exactly one rule per step by construction, so no question about a
step can miss.

`nextEligibleAfter?` is the only way the ladder is climbed: it names the least step above the
current rung that is not left out.
-/

namespace StallRecovery

/-- What the policy says about one step. -/
structure StepRule where
  /-- How long to wait after the step before climbing further. -/
  delay : Nat
  /-- Whether the step is left out. -/
  skip : Bool
deriving DecidableEq

/-- Which transitions a voice call holds. -/
inductive CallGuard where
  /-- Every transition, the first step included. -/
  | allSteps
  /-- Every transition but the first out of the baseline. -/
  | beyondFirstStep
deriving DecidableEq

/-- A recovery policy. -/
structure Policy where
  reestablish : StepRule
  powerCycle : StepRule
  reboot : StepRule
  /-- Signal levels strictly below this end recovery. -/
  threshold : UInt8
  callGuard : CallGuard
  /-- When false, validation is followed but nothing is done. -/
  enabled : Bool
deriving DecidableEq

/-- The wait after a step when nothing else is said: three minutes. -/
def defaultDelay : Nat := milliseconds 180000

/-- The signal threshold when nothing else is said. -/
def defaultThreshold : UInt8 := 2

namespace Policy

/-- The policy in force when none is given: every step, three minutes apart. -/
def standard : Policy where
  reestablish := ⟨defaultDelay, false⟩
  powerCycle := ⟨defaultDelay, false⟩
  reboot := ⟨defaultDelay, false⟩
  threshold := defaultThreshold
  callGuard := .allSteps
  enabled := true

/-- The rule for a step; the baseline has none. -/
def rule? (p : Policy) : Action → Option StepRule
  | .baseline => none
  | .reestablishInternet => some p.reestablish
  | .radioPowerCycle => some p.powerCycle
  | .modemReboot => some p.reboot

/-- The steps with their rules, in the order of the ladder. -/
def steps (p : Policy) : List (Action × StepRule) :=
  [(.reestablishInternet, p.reestablish), (.radioPowerCycle, p.powerCycle),
    (.modemReboot, p.reboot)]

/-- The wait after `a`. At the baseline it is the first step's, even if that step is left out: it
spaces the re-checks of a stall that was held before anything was tried. -/
def delayFor (p : Policy) (a : Action) : Nat := ((p.rule? a).getD p.reestablish).delay

/-- Whether `a` is left out. -/
def isSkipped (p : Policy) (a : Action) : Bool := ((p.rule? a).map (·.skip)).getD false

/-- The steps that are not left out, in the order of the ladder. -/
def eligible (p : Policy) : List Action := Action.steps.filter (!p.isSkipped ·)

/-- The least eligible step strictly above `current`. -/
def nextEligibleAfter? (p : Policy) (current : Action) : Option Action :=
  p.eligible.find? (current < ·)

/-- The step a decision to act performs: the next eligible one, or the current one again at the
top of the ladder. -/
def target (p : Policy) (current : Action) : Action :=
  (p.nextEligibleAfter? current).getD current

/-- Whether the policy can ever act: it is enabled and leaves some step in. -/
def isActive (p : Policy) : Bool := p.enabled && (p.nextEligibleAfter? .baseline).isSome

end Policy

end StallRecovery
