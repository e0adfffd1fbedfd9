import StallRecovery.Simulation.Report

/-!
# The command line

The arguments of the program: four options that may stand anywhere, and one of two commands with
options of its own. The arguments are scanned from left to right, first those before the command and
then those after it, and the first fault met decides the answer.

An option that is waiting for its value, or has just got it, is *pending*; it is entered when the
next option is met or the arguments are at an end. So a value that is not accepted, or an option
given twice, is noticed only then, and an argument that is not known at all is noticed first.
-/

namespace StallRecovery.CommandLine

/-- Why the arguments lead to no command. -/
inductive Problem where
  | helpAsked
  | versionAsked
  /-- There are no arguments to speak of. -/
  | nothingGiven
  | missingCommand
  | unknownCommand
  | unknownArgument
  /-- An option is given twice. -/
  | repeatedOption
  | missingOption
  /-- A value is missing or not accepted. -/
  | badValue
  /-- A value is given to an option that takes none. -/
  | needlessValue
deriving DecidableEq

/-- The text of a problem. -/
def Problem.message : Problem → String
  | .helpAsked => "help was asked for"
  | .versionAsked => "the version was asked for"
  | .nothingGiven => "no arguments were given"
  | .missingCommand => "a command is missing"
  | .unknownCommand => "there is no such command"
  | .unknownArgument => "there is no such argument"
  | .repeatedOption => "an option is given more than once"
  | .missingOption => "a required option is missing"
  | .badValue => "the value of an option is missing or not accepted"
  | .needlessValue => "an option that takes no value is given one"

/-- Where an argument stands: before the command, or after one. -/
inductive Place where
  | front
  | run
  | check
deriving DecidableEq

/-- The command of that name, as a place. -/
def Place.ofCommand? (name : String) : Option Place :=
  if name == "run" then some .run else if name == "check" then some .check else none

/-- An option. -/
inductive Opt where
  | logLevel
  | json
  | fileInfo
  | logSpans
  | policy
  | scenario
  | format
  | help
  | version
deriving DecidableEq

namespace Opt

/-- The long name of an option. -/
def long : Opt → String
  | .logLevel => "log-level"
  | .json => "json"
  | .fileInfo => "file-info"
  | .logSpans => "log-spans"
  | .policy => "policy"
  | .scenario => "scenario"
  | .format => "format"
  | .help => "help"
  | .version => "version"

/-- The short name of an option, if it has one. -/
def short? : Opt → Option Char
  | .policy => some 'p'
  | .scenario => some 's'
  | .help => some 'h'
  | .version => some 'V'
  | _ => none

/-- Whether an option takes a value. -/
def takesValue : Opt → Bool
  | .logLevel | .policy | .scenario | .format => true
  | _ => false

/-- Whether a value is accepted: a path is not empty, and a report format is a known one. -/
def accepts (o : Opt) (value : String) : Bool :=
  match o with
  | .policy | .scenario => value != ""
  | .format => value == "text" || value == "json"
  | _ => true

end Opt

/-- The options known at a place. -/
def Place.options : Place → List Opt
  | .front => [.logLevel, .json, .fileInfo, .logSpans, .help, .version]
  | .run => [.logLevel, .json, .fileInfo, .logSpans, .policy, .scenario, .format, .help]
  | .check => [.logLevel, .json, .fileInfo, .logSpans, .policy, .help]

/-- The options that a command does not do without. -/
def Place.required : Place → List Opt
  | .front => []
  | .run => [.policy, .scenario]
  | .check => [.policy]

/-- What has been made of the arguments so far. -/
structure Scan where
  /-- The options entered, with their values. -/
  entered : List (Opt × String)
  /-- The pending option, with its value if it has got one. -/
  pending : Option (Opt × Option String)
  /-- Whether `--` was met, after which nothing is an option. -/
  onlyArguments : Bool

namespace Scan

/-- Nothing has been scanned. -/
def empty : Scan := ⟨[], none, false⟩

/-- The value entered for an option. -/
def value? (o : Opt) (s : Scan) : Option String := (s.entered.find? (·.1 == o)).map (·.2)

/-- Whether an option is entered. -/
def has (o : Opt) (s : Scan) : Bool := (s.value? o).isSome

/-- Enters an option, once and with a value that it accepts. -/
def enter (o : Opt) (value : String) (s : Scan) : Except Problem Scan :=
  if s.has o then .error .repeatedOption
  else if o.accepts value then .ok { s with entered := s.entered ++ [(o, value)] }
  else .error .badValue

/-- Enters the pending option, if there is one. -/
def flush (s : Scan) : Except Problem Scan :=
  match s.pending with
  | none => .ok s
  | some (_, none) => .error .badValue
  | some (o, some value) => { s with pending := none }.enter o value

/-- The option that is waiting for its value. -/
def awaiting? (s : Scan) : Option Opt :=
  match s.pending with
  | some (o, none) => some o
  | _ => none

/-- Meets an option, with the value attached to it if there is one. -/
def meet (o : Opt) (attached : Option String) (s : Scan) : Except Problem Scan :=
  match o.takesValue, attached with
  | false, some _ => .error .needlessValue
  | false, none => do
    let s ← s.flush
    match o with
    | .help => .error .helpAsked
    | .version => .error .versionAsked
    | o => s.enter o ""
  | true, some value => do (← s.flush).enter o value
  | true, none => do return { ← s.flush with pending := some (o, none) }

/-- Meets an option by its long name. -/
def meetLong (place : Place) (name : String) (attached : Option String) (s : Scan) :
    Except Problem Scan :=
  match place.options.find? (·.long == name) with
  | none => .error .unknownArgument
  | some o => s.meet o attached

/-- Meets options by their short names in a row. An option that takes a value has the rest of the
row for its value, with or without an equals sign. -/
def meetShort (place : Place) : List Char → Scan → Except Problem Scan
  | [], s => .ok s
  | c :: rest, s =>
    match place.options.find? (·.short? == some c) with
    | none => .error .unknownArgument
    | some o =>
      if o.takesValue then
        match rest with
        | [] => s.meet o none
        | '=' :: rest => s.meet o (some (String.ofList rest))
        | rest => s.meet o (some (String.ofList rest))
      else do meetShort place rest (← s.meet o none)

/-- What is wrong with an argument that is no option and no value. -/
def stray (place : Place) (arg : String) (s : Scan) : Problem :=
  match place with
  | .front =>
    if s.onlyArguments && (arg == "help" || (Place.ofCommand? arg).isSome) then .unknownArgument
    else .unknownCommand
  | _ => .unknownArgument

/-- Scans an argument that is no command. -/
def argument (place : Place) (arg : String) (s : Scan) : Except Problem Scan :=
  if s.onlyArguments then .error (s.stray place arg)
  else
    match arg.toList with
    | ['-', '-'] => .ok { s with onlyArguments := true }
    | '-' :: '-' :: long =>
      let name := String.ofList (long.takeWhile (· != '='))
      match long.dropWhile (· != '=') with
      | [] => s.meetLong place name none
      | _ :: attached => s.meetLong place name (some (String.ofList attached))
    | '-' :: c :: row => s.meetShort place (c :: row)
    | _ =>
      match s.awaiting? with
      | some o => .ok { s with pending := some (o, some arg) }
      | none => .error (s.stray place arg)

end Scan

/-- What is answered to a call for help, given the words after it: help on one command at most. -/
def helpOn : List String → Problem
  | [] => .helpAsked
  | [name] =>
    if name == "help" || (Place.ofCommand? name).isSome then .helpAsked else .unknownCommand
  | _ => .unknownCommand

/-- Scans the arguments up to the command; the rest starts after it. -/
def scanFront (s : Scan) : List String → Except Problem (Scan × Option (Place × List String))
  | [] => .ok (s, none)
  | arg :: rest =>
    let isWord := !s.onlyArguments && s.awaiting?.isNone
    if isWord && arg == "help" then .error (helpOn rest)
    else
      match if isWord then Place.ofCommand? arg else none with
      | some place => .ok (s, some (place, rest))
      | none => do scanFront (← s.argument .front arg) rest

/-- Scans the arguments of a command. -/
def scanCommand (place : Place) (args : List String) : Except Problem Scan := do
  let s ← (← args.foldlM (fun s arg => s.argument place arg) Scan.empty).flush
  if place.required.all (s.has ·) then .ok s else .error .missingOption

/-- What the program is asked to do. -/
inductive Command where
  | run (policy scenario : String) (format : ReportFormat)
  | check (policy : String)
deriving DecidableEq

/-- A call of the program. -/
structure Invocation where
  /-- The log level as it was given. -/
  logLevel : String
  json : Bool
  fileInfo : Bool
  logSpans : Bool
  command : Command
deriving DecidableEq

/-- The command of a place, with its options. -/
def commandOf (place : Place) (s : Scan) : Command :=
  let policy := (s.value? .policy).getD ""
  match place with
  | .run =>
    .run policy ((s.value? .scenario).getD "")
      (if s.value? .format == some "json" then .json else .text)
  | _ => .check policy

/-- The call that the arguments make. What is given both before and after the command counts as
given after it. -/
def parse (args : List String) : Except Problem Invocation := do
  match ← scanFront .empty args with
  | (front, none) =>
    let front ← front.flush
    .error (if front.entered.isEmpty then .nothingGiven else .missingCommand)
  | (front, some (place, rest)) =>
    let after ← scanCommand place rest
    let front ← front.flush
    let has o := after.has o || front.has o
    .ok {
      logLevel := ((after.value? .logLevel).orElse fun _ => front.value? .logLevel).getD "info"
      json := has .json
      fileInfo := has .fileInfo
      logSpans := has .logSpans
      command := commandOf place after }

end StallRecovery.CommandLine
