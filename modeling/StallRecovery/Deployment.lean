import StallRecovery.Controller
import StallRecovery.Monitor
import StallRecovery.Policy.Settings

/-!
# Deployments

A deployment is a number of controllers under one clock that share one connectivity monitor and one
radio. Controllers do not speak to each other: they meet only in the monitor, which puts commands
into their queues, and in the radio, which they read. Letting the deployment settle is
therefore settling each controller by itself, and the order among them does not matter.

An `Operation` is what somebody outside does to a deployment. `act` does it and lets nothing else
happen, except where the operation itself takes time or waits for a controller; `perform` does it
and then lets everything happen that can happen at that instant.
-/

namespace StallRecovery

/-- Where the initial policy of a controller comes from. -/
inductive PolicySource where
  /-- None is given: the standard policy. -/
  | standard
  /-- Settings that are checked first; bad ones start nothing. -/
  | checked (settings : Settings)
  /-- Settings as they are; bad ones start a controller without a policy. -/
  | given (settings : Settings)

/-- How a controller is put together. -/
structure Launch where
  policy : PolicySource
  hasMonitor : Bool
  hasSignal : Bool
  hasCallState : Bool
  hasCallback : Bool
  collaborators : Collaborators
  /-- Why the monitor it is given refuses every registration, if that is such a monitor. -/
  monitorRefusal : Option String

/-- A complete launch with nothing left out. -/
def Launch.complete (policy : PolicySource) : Launch where
  policy
  hasMonitor := true
  hasSignal := true
  hasCallState := true
  hasCallback := true
  collaborators := {}
  monitorRefusal := none

/-- What a launch lacks; the first thing, if it lacks several. -/
def Launch.missing? (l : Launch) : Option String :=
  if !l.hasMonitor then some "connectivity monitor is required"
  else if !l.hasSignal then some "signal quality provider is required"
  else if !l.hasCallState then some "call state provider is required"
  else if !l.hasCallback then some "recovery callback is required"
  else none

/-- The initial policy, or why there is none. A check that fails is an error of its own. -/
def PolicySource.resolve : PolicySource → Except Fault (Except Fault Policy)
  | .standard => .ok (.ok .standard)
  | .checked settings => settings.toPolicy.map .ok
  | .given settings => .ok settings.toPolicy

/-- What somebody outside does to a deployment. Controllers go by the order they were started in. -/
inductive Operation where
  | start (launch : Launch)
  /-- The monitor publishes a status. -/
  | publish (valid : Bool)
  /-- A status is reported to one controller by its owner. -/
  | report (controller : Nat) (valid : Bool)
  /-- A status is put into one controller's sink. -/
  | deliver (controller : Nat) (valid : Bool)
  /-- Is a controller's sink closed? -/
  | sinkClosed (controller : Nat)
  /-- A controller's sink is registered once more. -/
  | register (controller : Nat)
  | unregister (id : Nat)
  | setSignal (reading : Except String UInt8)
  | setCall (reading : Except String CallState)
  /-- New settings; bad ones are reported to the controller too. -/
  | reload (controller : Nat) (settings : Settings)
  /-- New settings, checked beforehand; of bad ones the controller hears nothing. -/
  | reloadChecked (controller : Nat) (settings : Settings)
  /-- From now on the actions of a controller end with a failure for this reason, or succeed. -/
  | rejectActions (controller : Nat) (reason : Option String)
  /-- The actions of a controller that start from now on take this long. -/
  | setActionTime (controller : Nat) (duration : Nat)
  /-- The recorder of a controller loses what it is given, or no longer does. -/
  | setRecorderBroken (controller : Nat) (broken : Bool)
  /-- Time passes, and everything happens at its own instant. -/
  | sleep (duration : Nat)
  /-- The clock is moved; what is queued is handled at the new time, and what has become overdue
  happens afterwards. -/
  | jump (duration : Nat)
  /-- A controller handles what is queued and stops. -/
  | shutdown (controller : Nat)
  /-- A controller is abandoned with whatever is queued. -/
  | abandon (controller : Nat)

/-- What an operation answers. -/
inductive Reply where
  | done
  | noController
  | failed (fault : Fault)
  /-- How many registrations a published status went to. -/
  | delivered (count : Nat)
  | closed (isClosed : Bool)
  | registered (id : Nat)

/-- Controllers, their monitor, and what the guards would answer, at an instant. -/
structure Deployment where
  now : Nat
  monitor : Monitor
  readings : Readings
  controllers : List Controller

namespace Deployment

/-- A deployment without controllers, with a good signal and no call. -/
def empty : Deployment where
  now := 0
  monitor := .empty
  readings := ⟨.ok 4, .ok .idle⟩
  controllers := []

/-- Whether a sink takes reports. -/
def isOpen (d : Deployment) (sink : Nat) : Bool := d.controllers[sink]?.any (·.isOpen)

/-- Changes one controller. -/
def modify (i : Nat) (f : Controller → Controller) (d : Deployment) : Deployment :=
  { d with controllers := d.controllers.modify i f }

/-- Everything that can happen at this instant happens. -/
def settle (d : Deployment) : Deployment :=
  { d with controllers := d.controllers.map (·.settle d.readings d.now) }

/-- Time passes until just before `target`, then the clock shows `target`. An instant that has
already come is not waited for. -/
def sleepUntil (target : Nat) (d : Deployment) : Deployment :=
  if d.now < target then
    let d := d.settle
    { d with
      now := target
      controllers := d.controllers.map (·.passTo d.readings target d.now) }
  else d

/-- The clock is moved to `target` at once. Whatever could happen at the instant left behind happens
under the new time; what has become overdue is still to come. -/
def jumpTo (target : Nat) (d : Deployment) : Deployment :=
  { d with
    now := target
    controllers := d.controllers.map (·.settleThrough d.readings target d.now) }

/-- The monitor publishes a status into the queues of those it reaches. -/
def publish (valid : Bool) (d : Deployment) : Deployment × Nat :=
  let (monitor, reached) := d.monitor.publish d.isOpen valid
  let d := reached.foldl (fun d r => d.modify r.sink (·.send (.validation valid)))
    { d with monitor }
  (d, reached.length)

/-- Puts a controller together and starts it. Nothing remains of a start that fails. -/
def start (launch : Launch) (d : Deployment) : Deployment × Reply :=
  match launch.policy.resolve with
  | .error fault => (d, .failed fault)
  | .ok policy =>
    match launch.missing? with
    | some reason => (d, .failed (.misconfigured reason))
    | none =>
      match launch.monitorRefusal with
      | some reason => (d, .failed (.unregistered reason))
      | none =>
        let (monitor, id) := d.monitor.enter d.controllers.length
        let controller := Controller.new policy id launch.collaborators
        ({ d with monitor, controllers := d.controllers ++ [controller] }, .done)

/-- Does something to a controller that still has an owner. -/
def whileAlive (i : Nat) (d : Deployment) (f : Controller → Deployment × Reply) :
    Deployment × Reply :=
  match d.controllers[i]? with
  | none => (d, .noController)
  | some c => if c.isAlive then f c else (d, .noController)

/-- Does something with a controller, whose owner may be gone. -/
def whenKnown (i : Nat) (d : Deployment) (f : Controller → Deployment × Reply) :
    Deployment × Reply :=
  match d.controllers[i]? with
  | none => (d, .noController)
  | some c => f c

/-- Changes the collaborators of a controller, whose owner may be gone. -/
def equip (i : Nat) (d : Deployment) (change : Collaborators → Collaborators) :
    Deployment × Reply :=
  d.whenKnown i fun _ =>
    (d.modify i fun c => { c with collaborators := change c.collaborators }, .done)

/-- Does an operation and nothing else. -/
def act (d : Deployment) : Operation → Deployment × Reply
  | .start launch => d.start launch
  | .publish valid =>
    let (d, count) := d.publish valid
    (d, .delivered count)
  | .report i valid => d.whileAlive i fun _ => (d.modify i (·.send (.validation valid)), .done)
  | .deliver i valid => d.whenKnown i fun c =>
    if c.isOpen then (d.modify i (·.send (.validation valid)), .done) else (d, .failed .stopped)
  | .sinkClosed i => d.whenKnown i fun c => (d, .closed !c.isOpen)
  | .register i => d.whenKnown i fun _ =>
    match d.monitor.register d.isOpen i with
    | .ok (monitor, id) => ({ d with monitor }, .registered id)
    | .error fault => (d, .failed fault)
  | .unregister id => ({ d with monitor := d.monitor.unregister id }, .done)
  | .setSignal signal =>
    ({ d with readings := { d.readings with signal } }, .done)
  | .setCall call =>
    ({ d with readings := { d.readings with call } }, .done)
  | .reload i settings => d.whileAlive i fun _ =>
    let policy := settings.toPolicy
    let d := d.modify i (·.send (.reload policy))
    match policy with
    | .ok _ => (d, .done)
    | .error fault => (d, .failed fault)
  | .reloadChecked i settings => d.whileAlive i fun _ =>
    match settings.toPolicy with
    | .ok policy => (d.modify i (·.send (.reload (.ok policy))), .done)
    | .error fault => (d, .failed fault)
  | .rejectActions i rejection => d.equip i ({ · with rejection })
  | .setActionTime i actionTime => d.equip i ({ · with actionTime })
  | .setRecorderBroken i recorderBroken => d.equip i ({ · with recorderBroken })
  | .sleep duration => (d.sleepUntil (d.now + duration), .done)
  | .jump duration => (d.jumpTo (d.now + duration), .done)
  | .shutdown i => d.whileAlive i fun c =>
    let d := { d with monitor := d.monitor.unregister c.registration }
    ((d.modify i (·.send .shutdown)).settle, .done)
  | .abandon i => d.whileAlive i fun c =>
    let d := { d with monitor := d.monitor.unregister c.registration }
    (d.modify i (·.abandon), .done)

/-- Does an operation and lets the deployment settle. -/
def perform (d : Deployment) (op : Operation) : Deployment × Reply :=
  let (d, reply) := d.act op
  (d.settle, reply)

/-- Does operations back to back. -/
def actAll (d : Deployment) : List Operation → Deployment × List Reply
  | [] => (d, [])
  | op :: ops =>
    let (d, reply) := d.act op
    let (d, replies) := d.actAll ops
    (d, reply :: replies)

/-- Does operations back to back and then lets the deployment settle. -/
def performAll (d : Deployment) (ops : List Operation) : Deployment × List Reply :=
  let (d, replies) := d.actAll ops
  (d.settle, replies)

/-- The journals so far, in the order the controllers were started, and the deployment with empty
ones. -/
def takeJournals (d : Deployment) : Deployment × List Journal :=
  ({ d with controllers := d.controllers.map (·.takeJournal.1) },
    d.controllers.map (·.takeJournal.2))

end Deployment

end StallRecovery
