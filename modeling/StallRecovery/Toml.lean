/-!
# TOML values

What a TOML document says: a table of named values. Tables are alike however they were written, with
a header, with dotted names or inline, and a list of tables is a list. Integers are signed 64-bit
words, as the format promises. Of numbers with a fraction and of dates nothing is kept but that they
are there: no field of this library takes either.
-/

namespace StallRecovery.Toml

/-- A TOML value. -/
inductive Value where
  | string (text : String)
  | integer (n : Int64)
  | float
  | boolean (b : Bool)
  | datetime
  | list (items : List Value)
  | table (entries : List (String × Value))

/-- What is wrong with a document. -/
inductive Problem where
  /-- It is not TOML. -/
  | malformed
  /-- It is TOML, but a value is not of the kind it has to be. -/
  | mistyped
deriving DecidableEq

/-- The text of a problem. -/
def Problem.message : Problem → String
  | .malformed => "not a TOML document"
  | .mistyped => "a value is missing or of the wrong kind"

namespace Value

/-- The value of a name in a table. -/
def entry? (name : String) (entries : List (String × Value)) : Option Value :=
  (entries.find? (·.1 == name)).map (·.2)

/-- The truth value that a value is. -/
def bool? : Value → Option Bool
  | .boolean b => some b
  | _ => none

/-- The natural number that a value is. -/
def nat? : Value → Option Nat
  | .integer n => if 0 ≤ n.toInt then some n.toInt.toNat else none
  | _ => none

/-- The level between 0 and 255 that a value is. -/
def byte? (v : Value) : Option UInt8 :=
  v.nat?.bind fun n => if n < 256 then some (UInt8.ofNat n) else none

/-- The list that a value is, every element read by `read`. -/
def list? {α : Type} (read : Value → Option α) : Value → Option (List α)
  | .list items => items.mapM read
  | _ => none

/-- Whether a value holds nothing. -/
def isEmpty : Value → Bool
  | .list items => items.isEmpty
  | .table entries => entries.isEmpty
  | _ => false

/-- The case that a choice without content names: a string, or a table with that name alone and
nothing in it. -/
def choice? : Value → Option String
  | .string name => some name
  | .table [(name, content)] => if content.isEmpty then some name else none
  | _ => none

/-- A natural number of a document is below half a word's range. -/
theorem nat?_lt {v : Value} {n : Nat} (h : v.nat? = some n) :
    n < UInt64.size / 2 := by
  cases v with
  | integer i =>
    have bound := i.toInt_lt
    simp only [nat?] at h
    split at h
    · cases h
      simp only [UInt64.size]
      omega
    · cases h
  | _ => simp [nat?] at h

end Value

end StallRecovery.Toml
