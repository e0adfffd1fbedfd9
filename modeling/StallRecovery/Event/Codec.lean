import StallRecovery.Event
import StallRecovery.Json

/-!
# Events as JSON

An event is written as an object whose field `type` names its case. Reading is more liberal than
writing: options may be absent, fields nobody asked for are passed over, a duration may have more
nanoseconds than a second, and a list may stand for a record. What is read is then written in the
one form that writing has.
-/

namespace StallRecovery

/-- Number of values of an unsigned 64-bit word. -/
def wordBound : Nat := UInt64.size

/-- An action as JSON. -/
def Action.toJson (a : Action) : Json := .str a.name

/-- The action that a value outside of an event is. -/
def Action.ofJson? (j : Json) : Option Action := j.plainChoice?.bind Action.ofName?

namespace Event

/-- The name of a reset reason. -/
def resetName : ResetReason → String
  | .recovered => "recovered"
  | .weakSignal => "weak-signal"
  | .reconfigured => "reconfigured"

/-- The reset reason of that name. -/
def resetOfName? (text : String) : Option ResetReason :=
  [ResetReason.recovered, .weakSignal, .reconfigured].find? (resetName · == text)

/-- A duration as whole seconds and the nanoseconds left over. -/
def durationToJson (duration : Nat) : Json :=
  .obj [("secs", .int (duration / nanosPerSecond : Nat)),
    ("nanos", .int (duration % nanosPerSecond : Nat))]

/-- The duration that a value is. Nanoseconds beyond a second carry over into the seconds, which
then still have to fit a word. -/
def durationOfJson? (j : Json) : Option Nat := do
  let [secs, nanos] ← j.closedRecord? ["secs", "nanos"] | none
  let secs ← (← secs).natBelow? wordBound
  let nanos ← (← nanos).natBelow? UInt32.size
  if secs + nanos / nanosPerSecond < wordBound then
    some (secs * nanosPerSecond + nanos)
  else none

/-- A hold reason as JSON. -/
def holdToJson : HoldReason → Json
  | .inCall state => .obj [("in-call", .str state.name)]
  | .guardUnavailable => .str "guard-unavailable"

/-- The hold reason that a value is. -/
def holdOfJson? (j : Json) : Option HoldReason :=
  match j.choice? with
  | some ("in-call", some state) =>
    (state.emptyChoice?.bind CallState.ofName?).map .inCall
  | some ("guard-unavailable", _) => j.emptyChoice?.map fun _ => .guardUnavailable
  | _ => none

/-- What may be absent, with `null` for it. -/
def optionToJson {α : Type} (write : α → Json) : Option α → Json
  | none => .null
  | some a => write a

/-- An event as JSON. -/
def toJson : Event → Json
  | .episodeStarted => .obj [("type", .str "episode-started")]
  | .actionDispatched action =>
    .obj [("type", .str "action-dispatched"), ("action", action.toJson)]
  | .held action reason =>
    .obj [("type", .str "held"), ("action", action.toJson), ("reason", holdToJson reason)]
  | .reset source reason episode signal =>
    .obj [("type", .str "reset"), ("from", source.toJson), ("reason", .str (resetName reason)),
      ("episode", optionToJson durationToJson episode),
      ("signal", optionToJson (fun level => .int level.toNat) signal)]
  | .dispatchFailed action reason =>
    .obj [("type", .str "dispatch-failed"), ("action", action.toJson), ("reason", .str reason)]
  | .configRejected message =>
    .obj [("type", .str "config-rejected"), ("message", .str message)]

/-- The action that a value inside of an event is. -/
def actionOfJson? (j : Json) : Option Action := j.emptyChoice?.bind Action.ofName?

/-- The event of a case, from what stands beside the name of the case. -/
def ofCase? (case : String) (content : Json) : Option Event :=
  match case with
  | "episode-started" => do
    let _ ← content.record? []
    some .episodeStarted
  | "action-dispatched" => do
    let [action] ← content.record? ["action"] | none
    some (.actionDispatched (← actionOfJson? (← action)))
  | "held" => do
    let [action, reason] ← content.record? ["action", "reason"] | none
    some (.held (← actionOfJson? (← action)) (← holdOfJson? (← reason)))
  | "reset" => do
    let [source, reason, episode, signal] ←
      content.record? ["from", "reason", "episode", "signal"] | none
    some (.reset (← actionOfJson? (← source)) (← (← reason).emptyChoice?.bind resetOfName?)
      (← Json.optional? durationOfJson? episode) (← Json.optional? Json.byte? signal))
  | "dispatch-failed" => do
    let [action, reason] ← content.record? ["action", "reason"] | none
    some (.dispatchFailed (← actionOfJson? (← action)) (← (← reason).str?))
  | "config-rejected" => do
    let [message] ← content.record? ["message"] | none
    some (.configRejected (← (← message).str?))
  | _ => none

/-- The event that a value is. The case stands in the field `type`, or first in a list. -/
def ofJson? : Json → Option Event
  | .obj fields => do
    let case ← (← Json.field? "type" fields).str?
    ofCase? case (.obj (fields.filter (·.1 != "type")))
  | .arr (case :: items) => do ofCase? (← case.str?) (.arr items)
  | _ => none

end Event

end StallRecovery
