import StallRecovery.Clock
import StallRecovery.Guard

/-!
# Events

Every escalation, hold and reset is reported as an event, and so are the two things that go wrong
around recovery: an action that failed and a policy that was refused.
-/

namespace StallRecovery

/-- Why recovery went back to the baseline. -/
inductive ResetReason where
  /-- The network was reported valid again. -/
  | recovered
  /-- The signal fell below the threshold. -/
  | weakSignal
  /-- The policy was replaced. -/
  | reconfigured
deriving DecidableEq

/-- The reset reason in words. -/
def ResetReason.description : ResetReason → String
  | .recovered => "recovered"
  | .weakSignal => "weak signal"
  | .reconfigured => "reconfigured"

/-- Why recovery is held at its rung. -/
inductive HoldReason where
  /-- A radio action would drop the call. -/
  | inCall (state : CallState)
  /-- A source could not be asked. -/
  | guardUnavailable
deriving DecidableEq

/-- Something recovery reports. -/
inductive Event where
  /-- A stall was seen at the baseline. -/
  | episodeStarted
  /-- An action was handed over to be carried out. -/
  | actionDispatched (action : Action)
  /-- Escalation is held at `action`. -/
  | held (action : Action) (reason : HoldReason)
  /-- Recovery is back at the baseline. `episode` is the time since the episode began, and `signal`
  the level that forced the reset, if one did. -/
  | reset (source : Action) (reason : ResetReason) (episode : Option Nat)
      (signal : Option UInt8)
  /-- An action was carried out without success. -/
  | dispatchFailed (action : Action) (reason : String)
  /-- A policy was refused. -/
  | configRejected (message : String)
deriving DecidableEq

/-- The reason of a reset; other events have none. -/
def Event.resetReason? : Event → Option ResetReason
  | .reset _ reason _ _ => some reason
  | _ => none

end StallRecovery
