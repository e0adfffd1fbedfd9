import StallRecovery.Scenario
import StallRecovery.Toml.Document

/-!
# Scenario files

A scenario as a TOML document. A step is a table of named changes, or a list of the time and the
changes in their order, of which the later ones may be missing. Every time in a file is an integer
of the format and so below `2 ^ 63`, which keeps the end of the run within an unsigned word.
-/

namespace StallRecovery.Scenario

/-- Why a scenario file is not accepted. -/
inductive Problem where
  | unreadable (problem : Toml.Problem)
  | defective (defect : Defect)
deriving DecidableEq

/-- The text of a problem. -/
def Problem.message : Problem → String
  | .unreadable problem => "Invalid scenario TOML: " ++ problem.message
  | .defective defect => defect.message

/-- The names of the fields of a step, in their order. -/
def stepFields : List String := ["at_ms", "validation", "signal", "in_call", "signal_unavailable"]

/-- A field that may be absent. -/
def given? {α : Type} (read : Toml.Value → Option α) : Option Toml.Value → Option (Option α)
  | none => some none
  | some v => (read v).map some

/-- A step from its fields, in the order of `stepFields`. -/
def stepOfFields? : List (Option Toml.Value) → Option Step
  | [t, validation, signal, inCall, signalUnavailable] => do
    some {
      atMs := ← (← t).nat?
      validation := ← given? Toml.Value.bool? validation
      signal := ← given? Toml.Value.byte? signal
      inCall := ← given? Toml.Value.bool? inCall
      signalUnavailable := ← given? Toml.Value.bool? signalUnavailable }
  | _ => none

/-- The step that a value is. -/
def stepOfValue? : Toml.Value → Option Step
  | .table entries => stepOfFields? (stepFields.map (Toml.Value.entry? · entries))
  | .list items => stepOfFields? ((List.range stepFields.length).map (items[·]?))
  | _ => none

/-- The scenario in the table of a document. -/
def ofTable? (entries : List (String × Toml.Value)) : Option Scenario := do
  some {
    initialSignal := (← given? Toml.Value.byte? (Toml.Value.entry? "initial_signal" entries)).getD 4
    runForMs := (← given? Toml.Value.nat? (Toml.Value.entry? "run_for_ms" entries)).getD 0
    steps := (← given? (Toml.Value.list? stepOfValue?) (Toml.Value.entry? "step" entries)).getD [] }

/-- The scenario that a file holds, or what is wrong with it. -/
def load (text : String) : Except Problem Scenario :=
  match Toml.document? text with
  | none => .error (.unreadable .malformed)
  | some entries =>
    match ofTable? entries with
    | none => .error (.unreadable .mistyped)
    | some scenario =>
      match scenario.defect? with
      | some defect => .error (.defective defect)
      | none => .ok scenario

end StallRecovery.Scenario
