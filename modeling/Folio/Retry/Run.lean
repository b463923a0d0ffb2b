import Folio.Failure
import Folio.Retry.Policy

/-!
# Running an operation under a retry policy

A run attempts an operation until it succeeds, fails for good, has used up its
attempts or is cancelled, and records what it does.  Time is a number of nanoseconds
on a clock that only attempts and waits move.  A run tells how long it wants to wait;
how long it then waits is not up to the run.  Cancellation is the moment at which it
happens; it cuts off whatever is under way.
-/

namespace Folio

/-- How long somebody waits who is told at a moment to wait for a duration. -/
abbrev Wait := Duration → Nat → Nat

/-- Waiting for as long as one is told. -/
def Wait.exact : Wait := fun asked _ => asked.nanos

structure Attempt (σ α : Type) where
  result : Except Failure α
  /-- How many nanoseconds the attempt takes. -/
  takes : Nat
  state : σ

inductive Activity where
  | attempt (begun ended : Nat)
  /-- A wait for the duration `asked`, however long it took. -/
  | wait (asked : Duration) (begun ended : Nat)
  deriving DecidableEq

structure Run (σ α : Type) where
  result : Except Failure α
  /-- How many attempts were started. -/
  started : Nat
  ended : Nat
  state : σ
  /-- What the run spent its time on, in order. -/
  activities : List Activity

/-- A run in front of which something else was done. -/
def Run.behind {σ α : Type} (run : Run σ α) (done : List Activity) : Run σ α :=
  { run with activities := done ++ run.activities }

def cancelledBy (cancelAt : Option Nat) (moment : Nat) : Bool :=
  match cancelAt with
  | none => false
  | some cancelled => cancelled ≤ moment

/-- When that ends which is begun at the moment `now` and cut off. -/
def cutAt (cancelAt : Option Nat) (now : Nat) : Nat := max now (cancelAt.getD now)

namespace RetryPolicy

variable {σ α : Type}

/-- A run that cancellation ends at or after the moment `now`. -/
def cutOff (cancelAt : Option Nat) (started now : Nat) (state : σ) (activities : List Activity) :
    Run σ α :=
  ⟨.error .cancelled, started, cutAt cancelAt now, state, activities⟩

/--
Run an operation from the moment `now`, when `started` attempts have failed and
after the next one `left` more are allowed.
-/
def runFrom (policy : RetryPolicy) (wait : Wait) (cancelAt : Option Nat)
    (attempt : σ → Attempt σ α) : (left started now : Nat) → σ → Run σ α
  | left, started, now, state =>
      if cancelledBy cancelAt now then cutOff cancelAt started now state []
      else
        let played := attempt state
        let ended := now + played.takes
        if cancelledBy cancelAt ended then
          cutOff cancelAt (started + 1) now played.state [.attempt now (cutAt cancelAt now)]
        else
          let ending result := ⟨result, started + 1, ended, played.state, [.attempt now ended]⟩
          match played.result with
          | .ok answer => ending (.ok answer)
          | .error failure =>
              if failure.isTransient then
                match left with
                | 0 => ending (.error (.exhausted (started + 1) failure))
                | left + 1 =>
                    let asked := policy.delayAfter (started + 1)
                    let resumed := ended + wait asked ended
                    if cancelledBy cancelAt resumed then
                      cutOff cancelAt (started + 1) ended played.state
                        [.attempt now ended, .wait asked ended (cutAt cancelAt ended)]
                    else
                      (runFrom policy wait cancelAt attempt left (started + 1) resumed
                        played.state).behind [.attempt now ended, .wait asked ended resumed]
              else ending (.error failure)

def run (policy : RetryPolicy) (wait : Wait) (cancelAt : Option Nat) (attempt : σ → Attempt σ α)
    (now : Nat) (state : σ) : Run σ α :=
  policy.runFrom wait cancelAt attempt (policy.attempts.toNat - 1) 0 now state

end RetryPolicy

end Folio
