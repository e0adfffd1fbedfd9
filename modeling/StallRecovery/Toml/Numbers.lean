import StallRecovery.Toml
import StallRecovery.Toml.Characters

/-!
# TOML numbers and dates

A value that starts with a sign or a digit is a date or time, a number with a fraction or an
exponent, or an integer, in this order of preference. An integer has to fit a signed 64-bit word. A
number with a fraction has to stay below the bound from which doubles are infinite.

Underscores may stand between digits, singly. A decimal number has no superfluous zero in front.
-/

namespace StallRecovery.Toml

/-- Digits and what follows them. -/
abbrev Digits := Option (List Nat × List Char)

/-- Reads the digits that continue a number: more digits, each perhaps after an underscore. -/
def moreDigits? (base : Nat) : List Char → Digits
  | '_' :: c :: rest => do
    let d ← digit? base c
    let (ds, rest) ← moreDigits? base rest
    some (d :: ds, rest)
  | '_' :: [] => none
  | c :: rest =>
    match digit? base c with
    | none => some ([], c :: rest)
    | some d => (moreDigits? base rest).map fun (ds, rest) => (d :: ds, rest)
  | [] => some ([], [])

/-- Reads one digit or more. -/
def digits? (base : Nat) : List Char → Digits
  | c :: rest => do
    let d ← digit? base c
    let (ds, rest) ← moreDigits? base rest
    some (d :: ds, rest)
  | [] => none

/-- Reads the digits of a decimal integer: a zero alone, or digits that start with another one. -/
def wholeDigits? : List Char → Digits
  | '0' :: rest => some ([0], rest)
  | s => digits? 10 s

/-- Splits off a sign; the first component says whether it is a minus. -/
def sign : List Char → Bool × List Char
  | '+' :: rest => (false, rest)
  | '-' :: rest => (true, rest)
  | s => (false, s)

/-- An integer that fits a signed 64-bit word. -/
def integer? (negative : Bool) (magnitude : Nat) : Option Value :=
  let half := UInt64.size / 2
  if magnitude < half || (negative && magnitude == half) then
    let n : Int := magnitude
    some (.integer (Int64.ofInt (if negative then -n else n)))
  else none

/-- Whether a decimal number `digits · 10 ^ exponent` is, as a double, not positive infinity. The
bound lies half a unit above the greatest double. -/
def isFiniteDouble (digits : List Nat) (exponent : Int) : Bool :=
  let m := ofDigits 10 digits
  let bound := Nat.pow 2 1024 - Nat.pow 2 970
  if m == 0 || digits.length + exponent ≤ 0 then true
  else if 400 < exponent then false
  else if exponent < 0 then m < bound * Nat.pow 10 exponent.natAbs
  else m * Nat.pow 10 exponent.natAbs < bound

/-- Reads an exponent after its letter. -/
def exponent? (s : List Char) : Option (Int × List Char) := do
  let (negative, s) := sign s
  let (ds, rest) ← digits? 10 s
  let n : Int := ofDigits 10 ds
  some (if negative then -n else n, rest)

/-- Reads an exponent if its letter stands at the front. -/
def exponentIfAny? : List Char → Option (Int × List Char)
  | 'e' :: rest => exponent? rest
  | 'E' :: rest => exponent? rest
  | s => some (0, s)

/-- A number with a fraction or exponent, if it is not too large. A large negative one is
allowed. -/
def float? (negative : Bool) (digits : List Nat) (exponent : Int) : Option Value :=
  if negative || isFiniteDouble digits exponent then some .float else none

/-- A value and what follows it. -/
abbrev ReadValue := Option (Value × List Char)

/-- Drops the given characters from the front, if they are there. -/
def skip? : List Char → List Char → Option (List Char)
  | [], s => some s
  | c :: cs, d :: s => if c == d then skip? cs s else none
  | _ :: _, [] => none

/-- Reads a decimal number, without its sign: an integer, or a number with a fraction or
exponent. -/
def decimal? (negative : Bool) (s : List Char) : ReadValue := do
  let (whole, rest) ← wholeDigits? s
  match rest with
  | '.' :: rest =>
    let (fraction, rest) ← digits? 10 rest
    let (exponent, rest) ← exponentIfAny? rest
    some (← float? negative (whole ++ fraction) (exponent - fraction.length), rest)
  | 'e' :: _ | 'E' :: _ =>
    let (exponent, rest) ← exponentIfAny? rest
    some (← float? negative whole exponent, rest)
  | rest => some (← integer? negative (ofDigits 10 whole), rest)

/-- Reads an integer in another base, after what announces the base. -/
def based? (base : Nat) (s : List Char) : ReadValue := do
  let (ds, rest) ← digits? base s
  some (← integer? false (ofDigits base ds), rest)

/-- Reads a number. -/
def number? (s : List Char) : ReadValue :=
  match s with
  | '0' :: 'x' :: rest => based? 16 rest
  | '0' :: 'o' :: rest => based? 8 rest
  | '0' :: 'b' :: rest => based? 2 rest
  | _ =>
    let (negative, s) := sign s
    match skip? "inf".toList s <|> skip? "nan".toList s with
    | some rest => some (.float, rest)
    | none => decimal? negative s

/-! ## Dates and times -/

/-- Reads exactly two digits, if their number lies between two bounds. -/
def twoDigits? (least greatest : Nat) : List Char → Option (Nat × List Char)
  | a :: b :: rest => do
    let n := ofDigits 10 [← digit? 10 a, ← digit? 10 b]
    if least ≤ n ∧ n ≤ greatest then some (n, rest) else none
  | _ => none

/-- The days of a month. -/
def daysInMonth (year month : Nat) : Nat :=
  if month == 2 then
    if year % 4 == 0 && (year % 100 != 0 || year % 400 == 0) then 29 else 28
  else if [4, 6, 9, 11].contains month then 30 else 31

/-- Reads the rest of a time after its hour and colon. -/
def restOfTime? (s : List Char) : Option (List Char) := do
  let (_, s) ← twoDigits? 0 59 s
  let s ← skip? [':'] s
  let (_, s) ← twoDigits? 0 60 s
  match s with
  | '.' :: rest =>
    if rest.head?.any Char.isDigit then some (rest.dropWhile Char.isDigit) else some s
  | _ => some s

/-- What follows an hour and a colon at the front. -/
def hour? (s : List Char) : Option (List Char) :=
  (twoDigits? 0 23 s).bind fun (_, s) => skip? [':'] s

/-- Reads an offset from universal time, if there is one. -/
def offsetIfAny? : List Char → Option (List Char)
  | 'Z' :: rest | 'z' :: rest => some rest
  | '+' :: rest | '-' :: rest => do
    let s ← hour? rest
    (twoDigits? 0 59 s).map (·.2)
  | s => some s

/-- Reads the time after a date, if there is one. -/
def timeIfAny? (s : List Char) : Option (List Char) :=
  match s with
  | 'T' :: rest | 't' :: rest | ' ' :: rest =>
    match hour? rest with
    | none => some s
    | some rest => (restOfTime? rest).bind offsetIfAny?
  | _ => some s

/-- The year and what follows it, if four digits and a dash are at the front. -/
def year? : List Char → Option (Nat × List Char)
  | a :: b :: c :: d :: '-' :: rest => do
    some (ofDigits 10 [← digit? 10 a, ← digit? 10 b, ← digit? 10 c, ← digit? 10 d], rest)
  | _ => none

/-- Reads the rest of a date, and its time if there is one. -/
def restOfDate? (year : Nat) (s : List Char) : Option (List Char) := do
  let (month, s) ← twoDigits? 1 12 s
  let s ← skip? ['-'] s
  let (_, s) ← twoDigits? 1 (daysInMonth year month) s
  timeIfAny? s

/-- Reads a value that starts with a sign or a digit. Four digits and a dash announce a date, two
digits and a colon a time; what is announced has to follow. -/
def numberOrDate? (s : List Char) : ReadValue :=
  match year? s with
  | some (year, rest) => (restOfDate? year rest).map (.datetime, ·)
  | none =>
    match hour? s with
    | some rest => (restOfTime? rest).map (.datetime, ·)
    | none => number? s

end StallRecovery.Toml
