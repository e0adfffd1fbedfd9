import StallRecovery.Policy
import StallRecovery.Fault

/-!
# Settings

Settings are a policy as a carrier writes it: two tables of any length, one of delays and one of
skip flags, beside the scalar choices. `Policy.ofTables` accepts exactly the tables with one entry
per step, and names the first defect of any others.
-/

namespace StallRecovery

/-- A policy as written down, not yet checked. -/
structure Settings where
  /-- Waits in milliseconds, one per step. -/
  delays : List Nat
  /-- Skip flags, one per step. -/
  skips : List Bool
  threshold : UInt8
  callGuard : CallGuard
  enabled : Bool
deriving DecidableEq

/-- What is wrong with the tables of some settings. -/
inductive Settings.Defect where
  /-- One of the tables has no entry. -/
  | emptyTable
  /-- The tables differ in length. -/
  | lengthMismatch (delays skips : Nat)
  /-- The tables agree in length but not with the ladder. -/
  | stepCount (entries : Nat)
deriving DecidableEq

/-- The text of a defect. -/
def Settings.Defect.message : Settings.Defect → String
  | .emptyTable => "empty delay or skip table"
  | .lengthMismatch delays skips =>
    "delay table has " ++ toString delays ++ " entries but skip table has " ++ toString skips
  | .stepCount entries =>
    "expected " ++ toString Action.steps.length ++ " escalation steps, got " ++ toString entries

/-- A defect as the fault it is reported as. -/
def Settings.Defect.fault (d : Settings.Defect) : Fault := .misconfigured d.message

/-- The policy with these waits and skip flags, otherwise standard. -/
def Policy.ofTables : List Nat → List Bool → Except Settings.Defect Policy
  | [], _ => .error .emptyTable
  | _, [] => .error .emptyTable
  | [d₁, d₂, d₃], [s₁, s₂, s₃] =>
    .ok { Policy.standard with
      reestablish := ⟨d₁, s₁⟩, powerCycle := ⟨d₂, s₂⟩, reboot := ⟨d₃, s₃⟩ }
  | delays, skips =>
    if delays.length ≠ skips.length then
      .error (.lengthMismatch delays.length skips.length)
    else
      .error (.stepCount delays.length)

namespace Settings

/-- Settings in which nothing was written: they describe the standard policy. -/
def standard : Settings where
  delays := [180000, 180000, 180000]
  skips := [false, false, false]
  threshold := defaultThreshold
  callGuard := .allSteps
  enabled := true

/-- The policy that the settings describe. -/
def validate (s : Settings) : Except Defect Policy :=
  (Policy.ofTables (s.delays.map milliseconds) s.skips).map fun p =>
    { p with threshold := s.threshold, callGuard := s.callGuard, enabled := s.enabled }

/-- The policy that the settings describe, or the fault to report. -/
def toPolicy (s : Settings) : Except Fault Policy := s.validate.mapError Defect.fault

end Settings

theorem Settings.validate_standard : Settings.standard.validate = .ok Policy.standard := rfl

end StallRecovery
