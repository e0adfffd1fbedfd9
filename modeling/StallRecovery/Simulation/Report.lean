import StallRecovery.Event.Codec
import StallRecovery.Json.Printer
import StallRecovery.Policy.Table
import StallRecovery.Simulation

/-!
# Printing a report

A report as lines for people, or as an indented JSON document with its fields in alphabetical order.
Times are in whole milliseconds.
-/

namespace StallRecovery

/-- How a report is printed. -/
inductive ReportFormat where
  | text
  | json
deriving DecidableEq

namespace Report

/-- The report as lines of text. -/
def toText (r : Report) : String :=
  let nothing := if r.dispatches.isEmpty then "no recovery actions dispatched\n" else ""
  let dispatches := r.dispatches.map fun (t, action) =>
    padLeft 10 (toString (inMilliseconds t)) ++ "ms  " ++ action.name ++ "\n"
  let failures := r.failures.map fun fault => "failure: " ++ fault.message ++ "\n"
  nothing ++ String.join dispatches ++ String.join failures
    ++ "final: action=" ++ r.final.action.name
    ++ " validated=" ++ truth r.final.validated
    ++ " timer_pending=" ++ truth r.final.timerPending
    ++ " configured=" ++ truth r.final.configured ++ "\n"

/-- The report as a JSON value. -/
def toJson (r : Report) : Json :=
  .obj [
    ("dispatches", .arr (r.dispatches.map fun (t, action) =>
      .obj [("action", action.toJson), ("at_ms", .int (inMilliseconds t : Nat))])),
    ("failures", .arr (r.failures.map fun fault => .str fault.message)),
    ("final", .obj [("action", r.final.action.toJson), ("configured", .bool r.final.configured),
      ("timer_pending", .bool r.final.timerPending), ("validated", .bool r.final.validated)])]

/-- The report as it is printed. -/
def render (format : ReportFormat) (r : Report) : String :=
  match format with
  | .text => r.toText
  | .json => r.toJson.pretty ++ "\n"

end Report

end StallRecovery
