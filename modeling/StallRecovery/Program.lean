import StallRecovery.CommandLine
import StallRecovery.LogLevel
import StallRecovery.Policy.File
import StallRecovery.Scenario.File

/-!
# The program

What a call of the program does, given a way to read files: `check` prints the table of a policy,
and `run` plays a scenario and prints the report. The log level is looked at first, then the policy,
then the scenario; the first of them that is not right ends the call.

A policy that can be read but is not valid still runs, with a controller that has no policy: that
is what a device with a broken carrier table would do.
-/

namespace StallRecovery

/-- Why a file cannot be read as text. -/
inductive Unreadable where
  | notFound
  | isDirectory
  | notDirectory
  | nameTooLong
  | zeroInName
  | notUtf8
  | other (text : String)
deriving DecidableEq

/-- The text of a reading failure. -/
def Unreadable.message : Unreadable → String
  | .notFound => "No such file or directory (os error 2)"
  | .isDirectory => "Is a directory (os error 21)"
  | .notDirectory => "Not a directory (os error 20)"
  | .nameTooLong => "File name too long (os error 36)"
  | .zeroInName => "file name contained an unexpected NUL byte"
  | .notUtf8 => "stream did not contain valid UTF-8"
  | .other text => text

/-- A way to read files. -/
abbrev FileReader := String → Except Unreadable ByteArray

/-- Reads a file as text. -/
def FileReader.text (files : FileReader) (path : String) : Except Unreadable String := do
  match String.fromUTF8? (← files path) with
  | some text => .ok text
  | none => .error .notUtf8

namespace Program

/-- Why a call fails. -/
inductive Failure where
  | logLevel (text : String)
  | policyUnreadable (path : String) (reason : Unreadable)
  | policyRefused (path : String) (fault : Fault)
  | scenarioUnreadable (path : String) (reason : Unreadable)
  | scenarioRefused (path : String) (problem : Scenario.Problem)
  /-- A policy that is to be checked is not valid. -/
  | policyInvalid (fault : Fault)
deriving DecidableEq

/-- The text of a failure. -/
def Failure.message : Failure → String
  | .logLevel text => "invalid log level: " ++ text
  | .policyUnreadable path reason => "failed to read policy " ++ path ++ ": " ++ reason.message
  | .policyRefused path fault => "failed to parse policy " ++ path ++ ": " ++ fault.message
  | .scenarioUnreadable path reason =>
    "failed to read scenario " ++ path ++ ": " ++ reason.message
  | .scenarioRefused path problem =>
    "failed to parse scenario " ++ path ++ ": " ++ problem.message
  | .policyInvalid fault => fault.message

/-- The log level that a text names. -/
def logLevel (text : String) : Except Failure LogLevel :=
  match LogLevel.ofText? text with
  | some level => .ok level
  | none => .error (.logLevel text)

/-- The settings in a policy file. -/
def loadPolicy (files : FileReader) (path : String) : Except Failure Settings := do
  let text ← (files.text path).mapError (.policyUnreadable path)
  (Settings.load text).mapError (.policyRefused path)

/-- The scenario in a scenario file. -/
def loadScenario (files : FileReader) (path : String) : Except Failure Scenario := do
  let text ← (files.text path).mapError (.scenarioUnreadable path)
  (Scenario.load text).mapError (.scenarioRefused path)

/-- Prints the table of a policy. -/
def check (files : FileReader) (path : String) : Except Failure String := do
  let settings ← loadPolicy files path
  match settings.toPolicy with
  | .ok policy => .ok policy.table
  | .error fault => .error (.policyInvalid fault)

/-- Plays a scenario under a policy and prints the report. -/
def run (files : FileReader) (policy scenario : String) (format : ReportFormat) :
    Except Failure String := do
  let settings ← loadPolicy files policy
  let scenario ← loadScenario files scenario
  .ok ((Simulation.run settings scenario).render format)

/-- What a call prints. -/
def execute (files : FileReader) (call : CommandLine.Invocation) : Except Failure String := do
  let _ ← logLevel call.logLevel
  match call.command with
  | .run policy scenario format => run files policy scenario format
  | .check policy => check files policy

end Program

end StallRecovery
