import StallRecovery.Deployment

/-!
# Runs of a deployment

A run is a list of moments. At a moment somebody does something and nothing else happens, or a
controller is asked for a snapshot, or everything happens that can happen at that instant. Since
nothing but a moment of the last kind lets a controller come to its own, any number of things can be
done back to back, and a clock can be moved past whatever is due.
-/

namespace StallRecovery

/-- A moment in the run of a deployment. -/
inductive Moment where
  /-- Somebody does something. -/
  | act (op : Operation)
  /-- A controller that has an owner is asked for a snapshot. -/
  | ask (controller : Nat)
  /-- Everything happens that can happen at this instant. -/
  | settle

namespace Deployment

/-- The deployment after a moment. -/
def meet (d : Deployment) : Moment → Deployment
  | .act op => (d.act op).1
  | .ask i => (d.whileAlive i fun _ => (d.modify i (·.send .snapshot), .done)).1
  | .settle => d.settle

/-- The deployment after some moments. -/
def follow (d : Deployment) (moments : List Moment) : Deployment := moments.foldl meet d

theorem follow_append (d : Deployment) (ms ms' : List Moment) :
    d.follow (ms ++ ms') = (d.follow ms).follow ms' := List.foldl_append

theorem perform_fst (d : Deployment) (op : Operation) :
    (d.perform op).1 = d.follow [.act op, .settle] := rfl

theorem actAll_fst (d : Deployment) (ops : List Operation) :
    (d.actAll ops).1 = d.follow (ops.map .act) := by
  induction ops generalizing d with
  | nil => rfl
  | cons op ops ih => exact ih (d.act op).1

theorem performAll_fst (d : Deployment) (ops : List Operation) :
    (d.performAll ops).1 = d.follow (ops.map .act ++ [.settle]) := by
  have hall := d.actAll_fst ops
  rw [follow_append, ← hall]
  rfl

end Deployment

end StallRecovery
