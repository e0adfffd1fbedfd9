import StallRecovery.Event.Codec
import StallRecovery.Policy.Settings

/-!
# Settings as JSON

Settings are a record in which every field may be absent and then has its standard value. A field
that is there has to be right: `null` is not taken for absence.
-/

namespace StallRecovery

/-- The name by which a call guard is written in settings. -/
def CallGuard.name : CallGuard → String
  | .allSteps => "all-steps"
  | .beyondFirstStep => "beyond-first-step"

/-- The call guard of that name. -/
def CallGuard.ofName? (text : String) : Option CallGuard :=
  [CallGuard.allSteps, .beyondFirstStep].find? (·.name == text)

namespace Settings

/-- The names of the fields, in their order. -/
def fieldNames : List String :=
  ["delays_ms", "skip", "poor_signal_threshold", "call_guard", "enabled"]

/-- A field that is absent has its standard value, and one that is there has to be read. -/
def given? {α β : Type} (standard : α) (read : β → Option α) : Option β → Option α
  | none => some standard
  | some b => read b

/-- Settings from their fields, in the order of `fieldNames`. -/
def ofFields? {β : Type} (delays : β → Option (List Nat)) (skips : β → Option (List Bool))
    (threshold : β → Option UInt8) (callGuard : β → Option CallGuard) (enabled : β → Option Bool) :
    List (Option β) → Option Settings
  | [d, s, t, c, e] => do
    some {
      delays := ← given? standard.delays delays d
      skips := ← given? standard.skips skips s
      threshold := ← given? standard.threshold threshold t
      callGuard := ← given? standard.callGuard callGuard c
      enabled := ← given? standard.enabled enabled e }
  | _ => none

/-- The settings that a value is. -/
def ofJson? (j : Json) : Option Settings := do
  ofFields? (Json.list? (Json.natBelow? wordBound)) (Json.list? Json.bool?) Json.byte?
    (fun c => c.plainChoice?.bind CallGuard.ofName?) Json.bool? (← j.partialRecord? fieldNames)

/-- Settings as JSON. -/
def toJson (s : Settings) : Json :=
  .obj [("delays_ms", .arr (s.delays.map fun n => .int (n : Nat))),
    ("skip", .arr (s.skips.map .bool)),
    ("poor_signal_threshold", .int s.threshold.toNat), ("call_guard", .str s.callGuard.name),
    ("enabled", .bool s.enabled)]

end Settings

end StallRecovery
