import Folio.Store.Memory

/-!
# A store in memory behind a lossy connection

An attempt of a call is answered, or its reply is lost, or it is lost on its way to
the store.  The caller cannot tell the last two apart: both look like a transient
failure.  When attempts are made and what becomes of them is a course that is given
beforehand.
-/

namespace Folio

/-- What becomes of an attempt of a call. -/
inductive Fate where
  | answered
  /-- The store is reached, but its answer is lost. -/
  | replyLost (reason : String)
  /-- The store is not reached. -/
  | requestLost (reason : String)

/-- An attempt of a call: when it is made and what becomes of it. -/
structure Delivery where
  moment : Nat
  fate : Fate

def Delivery.reaches (delivery : Delivery) : Bool :=
  match delivery.fate with
  | .answered | .replyLost _ => true
  | .requestLost _ => false

/-- A store in memory, and the attempts of calls to it, the latest first. -/
structure Lossy where
  memory : Memory
  attempts : List Delivery

namespace Lossy

def start (memory : Memory) : Lossy := ⟨memory, []⟩

/-- The moments at which attempts reached the store, the latest first. -/
def reached (state : Lossy) : List Nat := (state.attempts.filter Delivery.reaches).map (·.moment)

/-- What is heard if a reply is lost; a call that is broken off takes its caller along. -/
def unheard {α : Type} (reason : String) (result : Except Failure α) : Except Failure α :=
  match result with
  | .error failure => .error (if failure.isBreakOff then failure else .transient reason)
  | .ok _ => .error (.transient reason)

def perform (course : Nat → Delivery) (call : Call) (state : Lossy) :
    Except Failure call.Answer × Lossy :=
  let delivery := course state.attempts.length
  let attempts := delivery :: state.attempts
  let (result, memory) := state.memory.perform delivery.moment call
  match delivery.fate with
  | .answered => (result, ⟨memory, attempts⟩)
  | .replyLost reason => (unheard reason result, ⟨memory, attempts⟩)
  | .requestLost reason => (.error (.transient reason), ⟨state.memory, attempts⟩)

/-- The store behind a connection with a course of attempts; scans go through. -/
def store (course : Nat → Delivery) : Store Lossy where
  perform := perform course
  scan := fun pattern state =>
    let listing := state.memory.listKeys (course state.attempts.length).moment pattern
    (fun later => (listing, later), state)

end Lossy

end Folio
