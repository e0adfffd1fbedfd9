import StallRecovery.Action

/-!
# Faults

What can go wrong around recovery: a policy that cannot be used, a source that does not answer, an
action that could not be carried out, a registration that was refused, a controller that is gone.
A weak signal or a voice call is no fault but a decision of the policy, and never shows up here.
-/

namespace StallRecovery

/-- A source asked before recovery may act. -/
inductive Source where
  | signal
  | callState
deriving DecidableEq

/-- The name by which a source is written in messages. -/
def Source.name : Source → String
  | .signal => "signal"
  | .callState => "call-state"

/-- Why an operation of the library failed. -/
inductive Fault where
  /-- A policy or an arrangement of collaborators is unusable. -/
  | misconfigured (reason : String)
  /-- A source could not be asked. -/
  | unavailable (source : Source) (reason : String)
  /-- An action was started and did not succeed. -/
  | undispatched (action : Action) (reason : String)
  /-- The monitor did not accept a sink. -/
  | unregistered (reason : String)
  /-- The controller no longer takes commands. -/
  | stopped
deriving DecidableEq

/-- The text of a fault, as shown to people and written into events. -/
def Fault.message : Fault → String
  | .misconfigured reason => "Configuration error: " ++ reason
  | .unavailable source reason => "Collaborator unavailable: " ++ source.name ++ ": " ++ reason
  | .undispatched action reason => "Failed to dispatch " ++ action.name ++ ": " ++ reason
  | .unregistered reason => "Registration error: " ++ reason
  | .stopped => "Recovery controller stopped"

end StallRecovery
