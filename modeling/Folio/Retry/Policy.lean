import Folio.Duration
import Folio.Misuse

/-!
# Retry policies

A policy says how often an operation is attempted in total and how long to wait
between two attempts.  The waiting times follow a schedule whose last entry is
used again once the schedule has run out.
-/

namespace Folio

/-- How often to attempt an operation and how long to wait in between. -/
@[ext] structure RetryPolicy where
  attempts : UInt32
  delays : List Duration
  attempts_ne_zero : attempts ≠ 0
  delays_ne_nil : delays ≠ []

namespace RetryPolicy

def make (attempts : UInt32) (delays : List Duration) : Except Misuse RetryPolicy :=
  if positive : attempts = 0 then .error .noAttempts
  else if nonempty : delays = [] then .error .noDelays
  else .ok ⟨attempts, delays, positive, nonempty⟩

def usualAttempts : UInt32 := 3

def usualDelayMillis : List Nat := [1000, 2000, 5000]

def usualDelays : List Duration := usualDelayMillis.map .ofMillis

/-- Three attempts, with longer and longer waits. -/
def usual : RetryPolicy :=
  ⟨usualAttempts, usualDelays, by decide, by simp [usualDelays, usualDelayMillis]⟩

instance : Inhabited RetryPolicy := ⟨usual⟩

/-- The wait after that many failed attempts. -/
def delayAfter (policy : RetryPolicy) (failures : Nat) : Duration :=
  policy.delays.get ⟨min failures (policy.delays.length - 1), by
    have := List.length_pos_iff.2 policy.delays_ne_nil
    omega⟩

end RetryPolicy

end Folio
