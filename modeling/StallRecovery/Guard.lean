import StallRecovery.Fault
import StallRecovery.Policy

/-!
# Guards

Before recovery acts it asks two sources: how good the signal is, and whether a voice call is on.
A weak signal ends recovery, a call holds it, and a source that does not answer holds it too.

The call state is asked for only when it matters: not after the signal has decided, and not for
the first step of a policy that lets the first step run during a call. Which sources were asked is
part of the answer, so that it can be reasoned about.
-/

namespace StallRecovery

/-- State of the voice call. -/
inductive CallState where
  | idle
  | ringing
  | active
deriving DecidableEq

/-- The name by which a call state is written. -/
def CallState.name : CallState → String
  | .idle => "idle"
  | .ringing => "ringing"
  | .active => "active"

/-- The call state of that name. -/
def CallState.ofName? (text : String) : Option CallState :=
  [CallState.idle, .ringing, .active].find? (·.name == text)

/-- What the two sources would answer at some moment; an error holds the reason why not. -/
structure Readings where
  signal : Except String UInt8
  call : Except String CallState

/-- What the guards make of the readings. -/
inductive Verdict where
  /-- Recovery may act. -/
  | proceed
  /-- The signal is too weak for recovery to help. -/
  | weakSignal (level : UInt8)
  /-- A call is on. -/
  | inCall (state : CallState)
  /-- A source could not be asked. -/
  | unavailable (fault : Fault)
deriving DecidableEq

/-- A verdict with the sources that were asked for it, in order. -/
structure Consultation where
  verdict : Verdict
  asked : List Source

/-- What the call state makes of a decision the signal has let through. -/
def Verdict.ofCall : Except String CallState → Verdict
  | .error reason => .unavailable (.unavailable .callState reason)
  | .ok .idle => .proceed
  | .ok state => .inCall state

/-- Asks the guards for one decision of a policy. `firstStep` marks a decision taken at the
baseline. -/
def Policy.consult (p : Policy) (readings : Readings) (firstStep : Bool) : Consultation :=
  match readings.signal with
  | .error reason => ⟨.unavailable (.unavailable .signal reason), [.signal]⟩
  | .ok level =>
    if level < p.threshold then
      ⟨.weakSignal level, [.signal]⟩
    else if firstStep && p.callGuard == .beyondFirstStep then
      ⟨.proceed, [.signal]⟩
    else
      ⟨Verdict.ofCall readings.call, [.signal, .callState]⟩

end StallRecovery
