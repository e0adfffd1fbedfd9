import StallRecovery.Policy

/-!
# The policy table

A policy printed for people: three lines of scalar choices, then one row per step. Columns are
padded, never cut, so a long delay pushes the rest of its row to the right and every field can
still be read off the row.
-/

namespace StallRecovery

/-- Pads a text on the right to a width; a longer text is left as it is. -/
def padRight (width : Nat) (text : String) : String :=
  text ++ String.ofList (List.replicate (width - text.length) ' ')

/-- Pads a text on the left to a width; a longer text is left as it is. -/
def padLeft (width : Nat) (text : String) : String :=
  String.ofList (List.replicate (width - text.length) ' ') ++ text

/-- A truth value in words. -/
def truth (b : Bool) : String := if b then "true" else "false"

/-- How the table names a call guard. -/
def CallGuard.label : CallGuard → String
  | .allSteps => "AllSteps"
  | .beyondFirstStep => "BeyondFirstStep"

namespace Policy

/-- One row: position, action, delay and skip flag, the last two spaces apart from the rest. -/
def tableRow (position action delay skip : String) : String :=
  padRight 6 position ++ padRight 24 action ++ padLeft 12 delay ++ "  " ++ skip ++ "\n"

/-- The row of a step. Its delay is shown in whole milliseconds. -/
def stepRow (a : Action) (r : StepRule) : String :=
  tableRow (toString a.index) a.name (toString (inMilliseconds r.delay) ++ "ms")
    (if r.skip then "yes" else "no")

/-- The whole table. -/
def table (p : Policy) : String :=
  "enabled: " ++ truth p.enabled ++ "\n"
    ++ "poor signal threshold: " ++ toString p.threshold.toNat ++ "\n"
    ++ "call guard: " ++ p.callGuard.label ++ "\n"
    ++ tableRow "step" "action" "delay" "skip"
    ++ String.join (p.steps.map fun s => stepRow s.1 s.2)

end Policy

end StallRecovery
