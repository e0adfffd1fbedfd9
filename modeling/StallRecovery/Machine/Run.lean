import StallRecovery.Machine

/-!
# Runs of the machine

`Input` gathers everything a machine can be fed, `Machine.step` feeds it one input, and
`Machine.run` a list of them, each at an instant of its own and with what the guards would answer
then. Instants need not increase: nothing here assumes a clock that only moves forward.

`Machine.Reachable` is the set of states that properties of every run are about.
-/

namespace StallRecovery

/-- Something a machine can be fed. -/
inductive Input where
  /-- A report about the network. -/
  | validation (valid : Bool)
  /-- An expiry of the re-check. -/
  | recheck
  /-- A policy to load. -/
  | reload (policy : Policy)
  /-- A policy that was refused. -/
  | refuse (fault : Fault)
  /-- An action that failed. -/
  | fail (action : Action) (fault : Fault)

/-- An input with its instant and with what the guards would answer. -/
structure Stimulus where
  input : Input
  now : Nat
  readings : Readings

namespace Machine

/-- Feeds one input. -/
def step (m : Machine) (x : Stimulus) : Machine × Outcome :=
  match x.input with
  | .validation valid => m.onValidation valid x.now x.readings
  | .recheck => m.onRecheck x.now x.readings
  | .reload policy => m.onReload policy x.now
  | .refuse fault => m.onRefusal fault
  | .fail action fault => m.onFailure action fault

/-- Feeds a list of inputs; the outcomes are in the order of the inputs. -/
def run (m : Machine) : List Stimulus → Machine × List Outcome
  | [] => (m, [])
  | x :: xs =>
    let (m, out) := m.step x
    let (m, outs) := m.run xs
    (m, out :: outs)

/-- The machines that some run leads to, from a fresh start with or without a policy. -/
inductive Reachable : Machine → Prop where
  | new (p : Policy) : Reachable (.new p)
  | unconfigured : Reachable .unconfigured
  | step {m : Machine} (x : Stimulus) : Reachable m → Reachable (m.step x).1

/-- What a run leads to is reachable. -/
theorem Reachable.run {m : Machine} (h : Reachable m) (xs : List Stimulus) :
    Reachable (m.run xs).1 := by
  induction xs generalizing m with
  | nil => exact h
  | cons x xs ih => exact ih (h.step x)

/-- A run can be cut anywhere. -/
theorem run_append (m : Machine) (xs ys : List Stimulus) :
    m.run (xs ++ ys) =
      (((m.run xs).1.run ys).1, (m.run xs).2 ++ ((m.run xs).1.run ys).2) := by
  induction xs generalizing m with
  | nil => rfl
  | cons x xs ih => simp [run, ih]

end Machine

end StallRecovery
