import StallRecovery.Policy.Codec
import StallRecovery.Toml.Document

/-!
# Policy files

Settings as a TOML document. Names that mean nothing are passed over; a name that is missing has its
standard value, and one that is there has to be of its kind.
-/

namespace StallRecovery

namespace Settings

/-- The settings in the table of a document. -/
def ofTable? (entries : List (String × Toml.Value)) : Option Settings :=
  ofFields? (Toml.Value.list? Toml.Value.nat?) (Toml.Value.list? Toml.Value.bool?)
    Toml.Value.byte? (fun v => v.choice?.bind CallGuard.ofName?) Toml.Value.bool?
    (fieldNames.map (Toml.Value.entry? · entries))

/-- The settings that a policy file holds, or what is wrong with it. -/
def ofToml (text : String) : Except Toml.Problem Settings :=
  match Toml.document? text with
  | none => .error .malformed
  | some entries =>
    match ofTable? entries with
    | none => .error .mistyped
    | some settings => .ok settings

/-- The settings that a policy file holds, or the fault to report. -/
def load (text : String) : Except Fault Settings :=
  (ofToml text).mapError fun problem =>
    .misconfigured ("invalid recovery settings: " ++ problem.message)

end Settings

end StallRecovery
