import Folio.Location.Pattern
import Folio.Retry.Run
import Folio.Store.Call

/-!
# Access to a store

An operation on documents checks its arguments, turns them into calls, sends
these to a store and reads the answers.  It changes the state of the store and
moves the clock that waits between attempts go by.  Checks come first: an
operation with a bad argument sends nothing.
-/

namespace Folio

/-- The state of a store, and the time on the clock of waits. -/
structure World (σ : Type) where
  now : Nat
  store : σ

abbrev Action (σ α : Type) := World σ → Except Failure α × World σ

/-- How to reach a store: its behaviour, when to retry and when to give up. -/
structure Access (σ : Type) where
  store : Store σ
  retry : RetryPolicy
  /-- The moment from which on everything is cancelled. -/
  cancelAt : Option Nat
  /-- How long retries wait that are told to wait. -/
  wait : Wait

namespace Access

variable {σ α β : Type}

def once (access : Access σ) (call : Call) : Action σ call.Answer := fun world =>
  let (result, store) := access.store.perform call world.store
  (result, { world with store := store })

/-- One attempt of a call, which takes no time on the clock of waits. -/
def attempt (access : Access σ) (call : Call) (state : σ) : Attempt σ call.Answer :=
  let (result, state) := access.store.perform call state
  ⟨result, 0, state⟩

def retried (access : Access σ) (call : Call) : Action σ call.Answer := fun world =>
  let run := access.retry.run access.wait access.cancelAt (access.attempt call) world.now
    world.store
  (run.result, ⟨run.ended, run.state⟩)

end Access

namespace Action

variable {σ α β : Type}

/-- Go on with what a check yields, or fail without doing anything. -/
def checked (check : Except Failure β) (next : β → Action σ α) : Action σ α := fun world =>
  match check with
  | .ok b => next b world
  | .error failure => (.error failure, world)

def answer (a : α) : Action σ α := fun world => (.ok a, world)

def reading (action : Action σ α) (read : α → Except Failure β) : Action σ β := fun world =>
  let (result, world) := action world
  (result.bind read, world)

end Action

/-- A time to live has to be positive. -/
def checkTtl (ttl : Option Duration) : Except Failure Unit :=
  match ttl with
  | some ttl => if ttl.isZero then .error (.misuse .zeroTtl) else .ok ()
  | none => .ok ()

def checkSchema (name : String) : Except Failure Schema := (Schema.ofText name).mapError .misuse

def documentKey (schema : String) (location : Location) : Except Failure String := do
  let schema ← checkSchema schema
  .ok (schema.key location)

end Folio
