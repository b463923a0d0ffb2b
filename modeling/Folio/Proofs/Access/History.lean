import Folio.Proofs.Access.Operation

/-!
# Histories of a store in memory

A history is what clients have done to a store that was empty at first.  It lists
the operations backwards, so that it grows at its front.  A store is sound as long as
every deadline is on the clock, also where its calls are made without a client.
-/

namespace Folio

structure Step where
  moment : Nat
  client : Client
  operation : Operation

namespace Step

def run (step : Step) (memory : Memory) : Except Failure step.operation.Answer × Memory :=
  step.client.run step.moment step.operation memory

theorem leaves_run (step : Step) (memory : Memory) :
    Memory.Leaves step.moment step.operation.keys step.operation.ttl? memory
      (step.run memory).2 :=
  Operation.leaves_run step.client step.moment step.operation memory

end Step

/--
Whether clients and direct calls lead from the empty store to a state, and all deadlines that they
ask for are on the clock.
-/
inductive Memory.Reached : Memory → Prop
  | empty : Memory.empty.Reached
  | step {memory : Memory} (reached : memory.Reached) (step : Step)
      (onClock : Memory.OnClock step.moment step.operation.ttl?) : (step.run memory).2.Reached
  | call {memory : Memory} (reached : memory.Reached) (now : Nat) (call : Call)
      (onClock : Memory.OnClock now call.ttl?) : (memory.perform now call).2.Reached

/-- Only a deadline that is not on the clock breaks a store. -/
theorem Memory.Reached.sound {memory : Memory} (reached : memory.Reached) :
    memory.poisoned = false := by
  induction reached with
  | empty => rfl
  | step _ step onClock ih => exact ((step.leaves_run _).poisoned onClock).trans ih
  | call _ now call onClock ih => exact ((leaves_perform now call _).poisoned onClock).trans ih

/-- What happened to a store, the latest step first. -/
abbrev History := List Step

namespace History

def after : History → Memory
  | [] => .empty
  | step :: earlier => (step.run (after earlier)).2

/-- Whether no step is before an earlier one. -/
def Ordered (history : History) : Prop :=
  history.Pairwise fun later earlier => earlier.moment ≤ later.moment

/-- Whether every deadline that is asked for in a history is on the clock. -/
def OnClock (history : History) : Prop :=
  ∀ step ∈ history, Memory.OnClock step.moment step.operation.ttl?

theorem reached_after {history : History} (onClock : history.OnClock) :
    (after history).Reached := by
  induction history with
  | nil => exact .empty
  | cons step earlier ih =>
      have reached := ih fun other mem => onClock other (List.mem_cons_of_mem step mem)
      exact reached.step step (onClock step List.mem_cons_self)

theorem poisoned_after {history : History} (onClock : history.OnClock) :
    (after history).poisoned = false := (reached_after onClock).sound

/-- A store that was poisoned once stays poisoned. -/
theorem sound_of_cons {step : Step} {earlier : History}
    (sound : (after (step :: earlier)).poisoned = false) : (after earlier).poisoned = false := by
  cases poisoned : (after earlier).poisoned with
  | false => rfl
  | true =>
      have stays := (step.leaves_run (after earlier)).stays poisoned
      rw [after, stays] at sound
      exact sound

end History

end Folio
