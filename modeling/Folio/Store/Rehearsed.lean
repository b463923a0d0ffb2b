import Folio.Store.Call

/-!
# Rehearsing with a store

A rehearsed store notes every call that it receives and can be told to fail: a
planned failure answers the next call before it reaches the store behind.  A scan
can be given a script to read from instead of the keys of the store.
-/

namespace Folio

inductive Received where
  | call (call : Call)
  | scan (pattern : String)
  deriving DecidableEq

structure Rehearsed (σ : Type) where
  store : σ
  /-- What happens to the next calls: a failure, or nothing special. -/
  plan : List (Option Failure)
  /-- What the next scans yield. -/
  scripts : List (Listing String)
  /-- What was received so far, the latest first. -/
  received : List Received

namespace Rehearsed

variable {σ : Type}

def start (store : σ) : Rehearsed σ := ⟨store, [], [], []⟩

def note (event : Received) (state : Rehearsed σ) : Rehearsed σ :=
  { state with received := event :: state.received }

def nextFailure (state : Rehearsed σ) : Option Failure × Rehearsed σ :=
  match state.plan with
  | [] => (none, state)
  | next :: plan => (next, { state with plan := plan })

/-- Read a listing in terms of the state behind. -/
def liftReader (reader : σ → Listing String × σ) (state : Rehearsed σ) :
    Listing String × Rehearsed σ :=
  let (listing, store) := reader state.store
  (listing, { state with store := store })

def wrap (behind : Store σ) : Store (Rehearsed σ) where
  perform := fun call state =>
    match (state.note (.call call)).nextFailure with
    | (some failure, state) => (.error failure, state)
    | (none, state) =>
        let (result, store) := behind.perform call state.store
        (result, { state with store := store })
  scan := fun pattern state =>
    let state := state.note (.scan pattern)
    match state.scripts with
    | script :: scripts => (fun later => (script, later), { state with scripts := scripts })
    | [] =>
        let (reader, store) := behind.scan pattern state.store
        (liftReader reader, { state with store := store })

end Rehearsed

end Folio
