import StallRecovery.Clock

/-!
# Scenarios

A scenario scripts what happens around one controller: at which time the network is reported valid
or not, how the signal changes, when a call is on, when the signal cannot be read. It is accepted if
every step changes something and no step is earlier than the one before it; otherwise the first
offending step is named, and a step that changes nothing is named for that even if it is also out
of order.
-/

namespace StallRecovery

/-- One change at one time. What is absent stays as it is. -/
structure Scenario.Step where
  /-- Milliseconds since the start. -/
  atMs : Nat
  /-- The network is reported valid, or not. -/
  validation : Option Bool
  /-- The signal level changes. -/
  signal : Option UInt8
  /-- A call begins or ends. -/
  inCall : Option Bool
  /-- The signal can no longer be read, or can be read again. -/
  signalUnavailable : Option Bool
deriving DecidableEq

/-- A script. -/
structure Scenario where
  /-- The signal level before the first step. -/
  initialSignal : UInt8
  /-- Milliseconds that the run goes on after the last step. -/
  runForMs : Nat
  steps : List Scenario.Step
deriving DecidableEq

/-- Why a list of steps is not accepted. Steps are counted from zero. -/
inductive Scenario.Defect where
  /-- A step changes nothing. -/
  | emptyStep (index atMs : Nat)
  /-- A step is earlier than the one before it. -/
  | outOfOrder (index atMs : Nat)
deriving DecidableEq

namespace Scenario

/-- The text of a defect. -/
def Defect.message : Defect → String
  | .emptyStep index t => "Step " ++ toString index ++ " at " ++ toString t ++ "ms changes nothing"
  | .outOfOrder index t =>
    "Step " ++ toString index ++ " at " ++ toString t
      ++ "ms is earlier than the step before it"

/-- Whether a step changes nothing. -/
def Step.isEmpty (s : Step) : Bool :=
  s.validation.isNone && s.signal.isNone && s.inCall.isNone && s.signalUnavailable.isNone

/-- The first defect of the steps from `index` on, when the step before them was at `last`. -/
def firstDefect? (index last : Nat) : List Step → Option Defect
  | [] => none
  | s :: rest =>
    if s.isEmpty then some (.emptyStep index s.atMs)
    else if s.atMs < last then some (.outOfOrder index s.atMs)
    else firstDefect? (index + 1) s.atMs rest

/-- The first defect of a scenario. -/
def defect? (s : Scenario) : Option Defect := firstDefect? 0 0 s.steps

/-- The instant at which the run ends, in milliseconds since the start. -/
def endMs (s : Scenario) : Nat := (s.steps.getLast?.map (·.atMs)).getD 0 + s.runForMs

end Scenario

end StallRecovery
