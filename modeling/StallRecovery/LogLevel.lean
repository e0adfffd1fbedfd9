/-!
# Log levels

A log level is given by name, in any mixture of cases, or by number, from one for errors only to
five for everything. A number may have a plus sign and leading zeros.
-/

namespace StallRecovery

/-- How much is logged. -/
inductive LogLevel where
  | error
  | warn
  | info
  | debug
  | trace
deriving DecidableEq

namespace LogLevel

/-- The levels in the order of their numbers. -/
def all : List LogLevel := [.error, .warn, .info, .debug, .trace]

/-- The name of a level. -/
def name : LogLevel → String
  | .error => "ERROR"
  | .warn => "WARN"
  | .info => "INFO"
  | .debug => "DEBUG"
  | .trace => "TRACE"

/-- The natural number that a text writes, with no sign but a plus and in digits only. -/
def number? (text : String) : Option Nat :=
  let digits := match text.toList with
    | '+' :: rest => rest
    | s => s
  if !digits.isEmpty && digits.all Char.isDigit then
    some (digits.foldl (fun n c => 10 * n + (c.toNat - '0'.toNat)) 0)
  else none

/-- The level of a number. -/
def ofNumber? : Nat → Option LogLevel
  | 0 => none
  | n + 1 => all[n]?

/-- The level that a text names. -/
def ofText? (text : String) : Option LogLevel :=
  match (number? text).bind ofNumber? with
  | some level => some level
  | none =>
    let letters := text.toList.map Char.toUpper
    all.find? (·.name.toList == letters)

end LogLevel

/-- What is asked of the log. -/
structure LogSettings where
  level : LogLevel
  json : Bool
  fileInfo : Bool
  spans : Bool
deriving DecidableEq

end StallRecovery
