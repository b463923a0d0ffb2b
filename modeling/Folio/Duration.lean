/-!
# Durations

A duration is a whole number of nanoseconds.  Its seconds fit in sixty-four bits.
-/

namespace Folio

def nanosPerSecond : Nat := 1000000000

def nanosPerMilli : Nat := 1000000

def secondsLimit : Nat := 0x10000000000000000

@[ext] structure Duration where
  nanos : Nat
  bounded : nanos < secondsLimit * nanosPerSecond
  deriving DecidableEq

namespace Duration

/-- The duration of that many nanoseconds, or the longest one. -/
def ofNanos (nanos : Nat) : Duration :=
  ⟨min nanos (secondsLimit * nanosPerSecond - 1), by
    have : 0 < secondsLimit * nanosPerSecond := by decide
    omega⟩

def ofMillis (millis : Nat) : Duration := ofNanos (millis * nanosPerMilli)

def ofSeconds (seconds : Nat) : Duration := ofNanos (seconds * nanosPerSecond)

def isZero (d : Duration) : Bool := d.nanos == 0

/-- The whole milliseconds of a duration as a sixty-four bit number, or the largest one. -/
def wholeMillis (d : Duration) : Nat := min (d.nanos / nanosPerMilli) 0xFFFFFFFFFFFFFFFF

end Duration

end Folio
