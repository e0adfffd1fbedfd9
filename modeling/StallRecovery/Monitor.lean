import StallRecovery.Fault

/-!
# The connectivity monitor

A monitor passes what it learns about the network on to every registered sink. Only changes are
passed on: publishing the status that was published last does nothing at all, not even to sinks
that have closed meanwhile. A change goes once to every registration whose sink is open, and the
registrations of closed sinks are forgotten on that occasion.

Sinks are named by numbers and are open or closed as the world says; one sink may be registered any
number of times, each time under an identity of its own. A closed sink is refused, and a refusal
uses up no identity.
-/

namespace StallRecovery

/-- A sink in the monitor's book. -/
structure Registration where
  id : Nat
  sink : Nat
deriving DecidableEq

/-- The monitor's book. -/
structure Monitor where
  /-- The identity the next registration gets. -/
  nextId : Nat
  /-- Who is registered, oldest first. -/
  registrations : List Registration
  /-- The status published last. -/
  published : Option Bool
deriving DecidableEq

namespace Monitor

/-- A monitor that has published nothing and knows nobody. -/
def empty : Monitor := ⟨1, [], none⟩

/-- Enters a sink; the result is the identity it is entered under. -/
def enter (sink : Nat) (m : Monitor) : Monitor × Nat :=
  ({ m with nextId := m.nextId + 1, registrations := m.registrations ++ [⟨m.nextId, sink⟩] },
    m.nextId)

/-- Enters a sink unless it is closed. -/
def register (isOpen : Nat → Bool) (sink : Nat) (m : Monitor) : Except Fault (Monitor × Nat) :=
  if isOpen sink then .ok (m.enter sink) else .error (.unregistered "sink already closed")

/-- Strikes a registration; an identity that is not entered is ignored. -/
def unregister (id : Nat) (m : Monitor) : Monitor :=
  { m with registrations := m.registrations.filter (·.id != id) }

/-- Publishes a status. The result lists the registrations it goes to, oldest first. -/
def publish (isOpen : Nat → Bool) (valid : Bool) (m : Monitor) : Monitor × List Registration :=
  if m.published = some valid then
    (m, [])
  else
    let reached := m.registrations.filter (isOpen ·.sink)
    ({ m with registrations := reached, published := some valid }, reached)

end Monitor

end StallRecovery
