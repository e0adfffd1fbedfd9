import StallRecovery.Machine

/-!
# Controllers

A controller owns one machine and gives it a life in time. Everything it is told arrives in one
queue and is handled in order; its re-check is an instant that it looks at only when the queue is
empty, so a re-check never overtakes a command. Actions run beside it for as long as they take and
come back through the queue.

What a controller reports is kept in its journal: the actions it started and what it asked for to
have them carried out, the failures it surfaced, the events it recorded and the snapshots it was
asked for.

`settle` is everything a controller does while the clock stands still. It is built of four phases
in a fixed order: the refusal of the initial policy, the queue, whatever was due before the re-check
and the re-check itself, and the actions that have ended. `settleThrough` is the same where the
clock was moved ahead and what has fallen due on the way is not looked at yet. `passTo` lets time
pass up to, but not including, an instant, and settles at every instant on the way at which
something falls due.
-/

namespace StallRecovery

/-- What those who carry out actions can be asked for. -/
inductive Request where
  | reestablishInternet
  | powerCycleRadio
  | rebootModem
deriving DecidableEq

/-- What an action asks for. The baseline is nothing to carry out. -/
def Action.request? : Action → Option Request
  | .baseline => none
  | .reestablishInternet => some .reestablishInternet
  | .radioPowerCycle => some .powerCycleRadio
  | .modemReboot => some .rebootModem

/-- The action that a request carries out. -/
def Request.action : Request → Action
  | .reestablishInternet => .reestablishInternet
  | .powerCycleRadio => .radioPowerCycle
  | .rebootModem => .modemReboot

/-- Something a controller is told through its queue. -/
inductive Command where
  /-- A report about the network. -/
  | validation (valid : Bool)
  /-- A policy to load, or why there is none. -/
  | reload (policy : Except Fault Policy)
  /-- A running action has ended. -/
  | finished (action : Action) (result : Except Fault Unit)
  /-- Show the state. -/
  | snapshot
  /-- Stop. -/
  | shutdown

/-- What a controller works with besides the guards: those who carry out its actions and hear its
failures, and the recorder of its events. Every controller has its own. -/
structure Collaborators where
  /-- Why actions that end now fail, if they do. -/
  rejection : Option String := none
  /-- How long actions that start now take. -/
  actionTime : Nat := 0
  /-- Whether surfaced failures are heard. -/
  hearsFailures : Bool := true
  /-- Whether there is a recorder. -/
  recordsEvents : Bool := true
  /-- Whether the recorder loses what it is given. -/
  recorderBroken : Bool := false
deriving DecidableEq

/-- An action being carried out. -/
structure Running where
  action : Action
  startedAt : Nat
  /-- How long it takes. -/
  duration : Nat

/-- When an action ends. -/
def Running.endsAt (r : Running) : Nat := r.startedAt + r.duration

/-- Whether an action has ended by `limit`. One that takes no time has ended as soon as it starts,
even where it starts after `limit`. -/
def Running.hasEnded (limit : Nat) (r : Running) : Bool := r.duration == 0 || r.endsAt ≤ limit

/-- How an action that ends now comes back. Nobody can reject what nobody was asked for. -/
def Running.result (k : Collaborators) (r : Running) : Command :=
  .finished r.action <| match r.action.request?, k.rejection with
    | some _, some reason => .error (.undispatched r.action reason)
    | _, _ => .ok ()

/-- What a controller has reported. -/
structure Journal where
  /-- The actions started, each with its instant. -/
  dispatched : Array (Nat × Action) := #[]
  /-- What was asked of those who carry out actions, each with its instant. -/
  requests : Array (Nat × Request) := #[]
  /-- The failures surfaced. -/
  failures : Array Fault := #[]
  /-- The events recorded. -/
  events : Array Event := #[]
  /-- The snapshots answered. -/
  snapshots : Array Snapshot := #[]

/-- How far the life of a controller has gone. -/
inductive Phase where
  /-- It handles its queue. -/
  | alive
  /-- It has been abandoned and stops at the next occasion; its queue still takes commands. -/
  | abandoned
  /-- It handles nothing any more and its queue is closed. -/
  | stopped
deriving DecidableEq

/-- A controller. -/
structure Controller where
  machine : Machine
  phase : Phase
  /-- Why the initial policy was refused, until that has been reported. -/
  refusal : Option Fault
  queue : List Command
  /-- The actions being carried out, the earliest to end first. -/
  running : List Running
  /-- Its own registration with the monitor. -/
  registration : Nat
  collaborators : Collaborators
  journal : Journal

namespace Controller

/-- A controller about to live under a policy, or without one if that was refused. -/
def new (policy : Except Fault Policy) (registration : Nat) (collaborators : Collaborators) :
    Controller where
  machine := .start policy
  phase := .alive
  refusal := match policy with
    | .ok _ => none
    | .error fault => some fault
  queue := []
  running := []
  registration
  collaborators
  journal := {}

/-- Whether the controller still has an owner who may speak to it. -/
def isAlive (c : Controller) : Bool := c.phase == .alive

/-- Whether its queue still takes commands. -/
def isOpen (c : Controller) : Bool := c.phase != .stopped

/-- Queues a command; a closed queue takes none. -/
def send (command : Command) (c : Controller) : Controller :=
  if c.isOpen then { c with queue := c.queue ++ [command] } else c

/-- The controller is abandoned by its owner. -/
def abandon (c : Controller) : Controller :=
  if c.isAlive then { c with phase := .abandoned } else c

/-- What observers see of a live controller. -/
def snapshot? (c : Controller) : Option Snapshot :=
  if c.isAlive then some c.machine.snapshot else none

/-- Starts carrying out an action. -/
def launch (now : Nat) (action : Action) (c : Controller) : Controller :=
  let started : Running := ⟨action, now, c.collaborators.actionTime⟩
  let (sooner, later) := c.running.partition (·.endsAt ≤ started.endsAt)
  { c with
    running := sooner ++ started :: later
    journal := { c.journal with
      dispatched := c.journal.dispatched.push (now, action)
      requests := c.journal.requests ++ (action.request?.map (now, ·)).toArray } }

/-- Records events, unless they are lost. -/
def record (events : List Event) (c : Controller) : Controller :=
  if c.collaborators.recordsEvents && !c.collaborators.recorderBroken then
    { c with journal := { c.journal with events := c.journal.events ++ events } }
  else c

/-- Surfaces a failure to whoever hears it. -/
def surface (fault : Fault) (c : Controller) : Controller :=
  if c.collaborators.hearsFailures then
    { c with journal := { c.journal with failures := c.journal.failures.push fault } }
  else c

/-- Does what the machine decided. -/
def carryOut (now : Nat) (out : Outcome) (c : Controller) : Controller :=
  let c := c.record out.events
  let c := match out.dispatch with
    | none => c
    | some action => c.launch now action
  match out.failure with
  | none => c
  | some fault => c.surface fault

/-- Feeds the machine and does what it decides. -/
def feed (now : Nat) (input : Machine → Machine × Outcome) (c : Controller) : Controller :=
  let (machine, out) := input c.machine
  { c with machine }.carryOut now out

/-- Handles one command. -/
def handle (readings : Readings) (now : Nat) (c : Controller) : Command → Controller
  | .validation valid => c.feed now (·.onValidation valid now readings)
  | .reload (.ok policy) => c.feed now (·.onReload policy now)
  | .reload (.error fault) => c.feed now (·.onRefusal fault)
  | .finished _ (.ok _) => c
  | .finished action (.error fault) => c.feed now (·.onFailure action fault)
  | .snapshot =>
    let snapshots := c.journal.snapshots.push c.machine.snapshot
    { c with journal := { c.journal with snapshots } }
  | .shutdown => { c with phase := .stopped, queue := [] }

/-- Handles commands in order until there is none left or one of them stops the controller. -/
def drain (readings : Readings) (now : Nat) (c : Controller) : List Command → Controller
  | [] => c
  | command :: rest =>
    let c := c.handle readings now command
    if c.isAlive then c.drain readings now rest else c

/-- Reports the refusal of the initial policy, once. -/
def reportRefusal (now : Nat) (c : Controller) : Controller :=
  match c.refusal with
  | none => c
  | some fault => { c with refusal := none }.feed now (·.onRefusal fault)

/-- Lets the actions that have ended through `limit` come back, the earliest first. -/
def finishThrough (readings : Readings) (now limit : Nat) (c : Controller) : Controller :=
  let (ended, running) := c.running.partition (·.hasEnded limit)
  { c with running }.drain readings now (ended.map (Running.result c.collaborators))

/-- Looks again for as long as a re-check is due through `limit`, which it may be once more right
after a look where a policy waits no time. One that still is after a look from every rung would be
for ever, and is left. -/
def lookThrough (readings : Readings) (now limit : Nat) : Nat → Controller → Controller
  | 0, c => c
  | looks + 1, c =>
    if c.machine.state.deadline.any (· ≤ limit) then
      (c.feed now (·.onRecheck now readings)).lookThrough readings now limit looks
    else c

/-- Everything that is due through `limit`: first the actions that ended no later than the re-check
was due, then the re-check, then the other actions that have ended. -/
def fireThrough (readings : Readings) (now limit : Nat) (c : Controller) : Controller :=
  let c := match c.machine.state.deadline with
    | some deadline =>
      if deadline ≤ limit then
        (c.finishThrough readings now deadline).lookThrough readings now limit Action.all.length
      else c
    | none => c
  c.finishThrough readings now limit

/-- Everything a controller does while the clock shows `now`, except that what has fallen due after
`limit` is left alone. Its commands, and the actions they start, do not wait for that. -/
def settleThrough (readings : Readings) (now limit : Nat) (c : Controller) : Controller :=
  match c.phase with
  | .stopped => c
  | .abandoned => { c with phase := .stopped, queue := [] }
  | .alive =>
    let c := c.reportRefusal now
    let c := { c with queue := [] }.drain readings now c.queue
    if c.isAlive then c.fireThrough readings now limit else c

/-- Everything a controller does while the clock stands still. -/
def settle (readings : Readings) (now : Nat) (c : Controller) : Controller :=
  c.settleThrough readings now now

/-- The first instant at which something falls due for a live controller. -/
def nextDue? (c : Controller) : Option Nat :=
  if c.isAlive then
    match c.machine.state.deadline, c.running.head?.map (·.endsAt) with
    | some a, some b => some (min a b)
    | some a, none => some a
    | none, b => b
  else none

/-- Lets time pass from `now` to just before `target`. -/
def passTo (readings : Readings) (target now : Nat) (c : Controller) : Controller :=
  match c.nextDue? with
  | none => c
  | some due =>
    if _h : now < due ∧ due < target then
      (c.settle readings due).passTo readings target due
    else c
termination_by target - now
decreasing_by omega

/-- The journal so far, and the controller with an empty one. -/
def takeJournal (c : Controller) : Controller × Journal := ({ c with journal := {} }, c.journal)

end Controller

end StallRecovery
