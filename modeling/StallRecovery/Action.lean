/-!
# The ladder of recovery actions

Recovery climbs a fixed ladder: from the healthy baseline, where nothing has been tried, through
three steps that each disturb the device more than the one before. Everything else in the library
speaks about a rung of this ladder; the order of the rungs is the order of their indices.
-/

namespace StallRecovery

/-- A rung of the ladder: the baseline, or the recovery step last attempted. -/
inductive Action where
  | baseline
  | reestablishInternet
  | radioPowerCycle
  | modemReboot
deriving DecidableEq, Inhabited

namespace Action

/-- Every rung, least disruptive first. -/
def all : List Action := [.baseline, .reestablishInternet, .radioPowerCycle, .modemReboot]

/-- The rungs that do something: all but the baseline, in order. -/
def steps : List Action := [.reestablishInternet, .radioPowerCycle, .modemReboot]

/-- The most disruptive step. -/
def final : Action := .modemReboot

/-- Position on the ladder, counted from the baseline. -/
def index : Action → Nat
  | .baseline => 0
  | .reestablishInternet => 1
  | .radioPowerCycle => 2
  | .modemReboot => 3

/-- The rung at a position, if the ladder is that long. -/
def ofIndex? (i : Nat) : Option Action := all[i]?

/-- The rung above, if there is one. -/
def next? (a : Action) : Option Action := ofIndex? (a.index + 1)

instance : LT Action := ⟨fun a b => a.index < b.index⟩

instance (a b : Action) : Decidable (a < b) := inferInstanceAs (Decidable (a.index < b.index))

instance : Ord Action := ⟨fun a b => compare a.index b.index⟩

/-- True of the steps that touch the radio and would drop a voice call. -/
def isRadioDisruptive : Action → Bool
  | .radioPowerCycle | .modemReboot => true
  | .baseline | .reestablishInternet => false

/-- The name by which an action is written in reports, events and errors. -/
def name : Action → String
  | .baseline => "none"
  | .reestablishInternet => "reestablish-internet"
  | .radioPowerCycle => "radio-power-cycle"
  | .modemReboot => "modem-reboot"

/-- The action of that name. -/
def ofName? (text : String) : Option Action := all.find? (·.name == text)

/-- Every rung is listed. -/
theorem mem_all (a : Action) : a ∈ all := by cases a <;> decide

/-- The steps are the rungs above the baseline. -/
theorem mem_steps {a : Action} : a ∈ steps ↔ a ≠ .baseline := by cases a <;> decide

theorem ofIndex?_index (a : Action) : ofIndex? a.index = some a := by cases a <;> rfl

theorem ofName?_name (a : Action) : ofName? a.name = some a := by cases a <;> decide

end Action

end StallRecovery
