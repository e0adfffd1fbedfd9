/-!
# Time

Instants and durations are natural numbers of nanoseconds; an instant counts from the start of the
clock. Policies and scenarios are written in milliseconds and tables print milliseconds, so both
conversions live here. The difference of two instants is the truncated difference of naturals: a
clock that was set back has measured nothing.
-/

namespace StallRecovery

/-- Nanoseconds in a second. -/
def nanosPerSecond : Nat := 1000000000

/-- Nanoseconds in a millisecond. -/
def nanosPerMilli : Nat := 1000000

/-- A duration of whole milliseconds. -/
def milliseconds (n : Nat) : Nat := n * nanosPerMilli

/-- The whole milliseconds in a duration; the rest is cut off. -/
def inMilliseconds (duration : Nat) : Nat := duration / nanosPerMilli

theorem inMilliseconds_milliseconds (n : Nat) : inMilliseconds (milliseconds n) = n :=
  Nat.mul_div_cancel n (by decide)

end StallRecovery
