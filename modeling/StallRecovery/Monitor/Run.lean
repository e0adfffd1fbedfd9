import StallRecovery.Monitor

/-!
# Runs of a monitor

A monitor stands among sinks, each of which takes what it is given until it closes, and then never
again. `Exchange` is the whole of that; a run is what people do to it, one step after the other. A
sink only knows what it was given. Through which registration it came is written down beside it, so
that something can be said of each of several registrations of one sink.
-/

namespace StallRecovery

/-- A status that a sink took, with the registration it came through. -/
structure Delivery where
  registration : Registration
  valid : Bool
deriving DecidableEq

/-- A monitor among sinks. -/
structure Exchange where
  monitor : Monitor
  isOpen : Nat → Bool
  /-- What each sink was given, in order. -/
  received : Nat → List Bool
  deliveries : List Delivery

/-- What can be done to a monitor and its sinks. -/
inductive Monitor.Step where
  | register (sink : Nat)
  | unregister (id : Nat)
  | publish (valid : Bool)
  /-- A sink closes. -/
  | close (sink : Nat)

/-- What a step answers. -/
inductive Monitor.Answer where
  | registered (id : Nat)
  | refused (fault : Fault)
  /-- How many registrations a published status went to. -/
  | delivered (count : Nat)
  | done
deriving DecidableEq

/-- The identity that an answer issues. -/
def Monitor.Answer.id? : Monitor.Answer → Option Nat
  | .registered id => some id
  | _ => none

/-- The status that a step publishes. -/
def Monitor.Step.published? : Monitor.Step → Option Bool
  | .publish valid => some valid
  | _ => none

namespace Exchange

/-- A monitor that knows nobody, among sinks that are all open. -/
def empty : Exchange where
  monitor := .empty
  isOpen _ := true
  received _ := []
  deliveries := []

/-- Gives a status to the sink of a registration; a closed one does not take it. -/
def give (valid : Bool) (x : Exchange) (r : Registration) : Exchange :=
  if x.isOpen r.sink then
    { x with
      received := fun sink =>
        if r.sink = sink then x.received sink ++ [valid] else x.received sink
      deliveries := x.deliveries ++ [⟨r, valid⟩] }
  else x

/-- Does one step. -/
def step (x : Exchange) : Monitor.Step → Exchange × Monitor.Answer
  | .register sink =>
    match x.monitor.register x.isOpen sink with
    | .ok (monitor, id) => ({ x with monitor }, .registered id)
    | .error fault => (x, .refused fault)
  | .unregister id => ({ x with monitor := x.monitor.unregister id }, .done)
  | .publish valid =>
    let (monitor, reached) := x.monitor.publish x.isOpen valid
    (reached.foldl (give valid) { x with monitor }, .delivered reached.length)
  | .close sink =>
    ({ x with isOpen := fun sink' => sink' != sink && x.isOpen sink' }, .done)

/-- Does steps one after the other; the answers are in the order of the steps. -/
def run (x : Exchange) : List Monitor.Step → Exchange × List Monitor.Answer
  | [] => (x, [])
  | s :: steps =>
    let (x, answer) := x.step s
    let (x, answers) := x.run steps
    (x, answer :: answers)

end Exchange

end StallRecovery
