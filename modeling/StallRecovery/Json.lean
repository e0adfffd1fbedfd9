/-!
# JSON values

Events and settings are exchanged as JSON values, and a report can be printed as one. A number that
is written as an integer is told from one written with a fraction or an exponent: no field of this
library takes the latter, even where its value is whole.

The readers here are the shapes that records and choices take. A record is an object, whose fields
may come in any order and may be absent, or a list of the same fields in their order. A choice is
the name of a case, or an object with that name as its only key.
-/

namespace StallRecovery

/-- A JSON value. -/
inductive Json where
  | null
  | bool (b : Bool)
  /-- A number written as an integer. -/
  | int (n : Int)
  /-- A number written with a fraction or an exponent, as it is written. -/
  | real (text : String)
  | str (s : String)
  | arr (items : List Json)
  | obj (fields : List (String × Json))

namespace Json

/-- The value of a field. -/
def field? (name : String) (fields : List (String × Json)) : Option Json :=
  (fields.find? (·.1 == name)).map (·.2)

/-- The truth value that a value is. -/
def bool? : Json → Option Bool
  | .bool b => some b
  | _ => none

/-- The text that a value is. -/
def str? : Json → Option String
  | .str s => some s
  | _ => none

/-- The natural number that a value is, if it is below a bound. -/
def natBelow? (bound : Nat) : Json → Option Nat
  | .int (.ofNat n) => if n < bound then some n else none
  | _ => none

/-- The level between 0 and 255 that a value is. -/
def byte? (j : Json) : Option UInt8 := (j.natBelow? 256).map UInt8.ofNat

/-- The list that a value is, every element read by `read`. -/
def list? {α : Type} (read : Json → Option α) : Json → Option (List α)
  | .arr items => items.mapM read
  | _ => none

/-- Reads what may be `null`. -/
def nullable? {α : Type} (read : Json → Option α) : Json → Option (Option α)
  | .null => some none
  | j => (read j).map some

/-- Reads a field that may be absent or `null`. -/
def optional? {α : Type} (read : Json → Option α) : Option Json → Option (Option α)
  | none => some none
  | some j => nullable? read j

/-- The fields of a record, in the order of `names`. A list has to give all of them and no more. -/
def record? (names : List String) : Json → Option (List (Option Json))
  | .obj fields => some (names.map (field? · fields))
  | .arr items => if items.length = names.length then some (items.map some) else none
  | _ => none

/-- The fields of a record that has no others, in the order of `names`. -/
def closedRecord? (names : List String) : Json → Option (List (Option Json))
  | .obj fields =>
    if fields.all (names.contains ·.1) then some (names.map (field? · fields)) else none
  | j => j.record? names

/-- The fields of a record in which any may be missing at the end of a list too. -/
def partialRecord? (names : List String) : Json → Option (List (Option Json))
  | .arr items =>
    if items.length ≤ names.length then
      some (items.map some ++ List.replicate (names.length - items.length) none)
    else none
  | j => j.record? names

/-- The case that a choice names and what is said about it. -/
def choice? : Json → Option (String × Option Json)
  | .str name => some (name, none)
  | .obj [(name, content)] => some (name, some content)
  | _ => none

/-- The case that a choice without content names. -/
def plainChoice? (j : Json) : Option String :=
  match j.choice? with
  | some (name, none) => some name
  | some (name, some .null) => some name
  | _ => none

/-- The case that a choice without content names, where an empty object counts as no content. -/
def emptyChoice? (j : Json) : Option String :=
  match j.choice? with
  | some (name, some (.obj [])) => some name
  | _ => j.plainChoice?

end Json

end StallRecovery
