import Folio.Proofs.Access.Operation

/-!
# What answers depend on

The answer to an operation that is no search depends on nothing but what the store shows
under the keys that the operation asks for, and on whether the store is poisoned.
-/

namespace Folio

namespace Memory

/-- Whether two stores show the same under some keys at a moment, and both are sound or neither is. -/
structure Alike (now : Nat) (keys : List String) (memory other : Memory) : Prop where
  poisoned : memory.poisoned = other.poisoned
  live : ∀ key ∈ keys, memory.live? now key = other.live? now key

variable {now : Nat} {memory other : Memory}

theorem answer_mergeHash (now : Nat) (key : String) (fields : List (String × String))
    (ttl : Option Duration) (hash : SortedMap String) (expiresAt : Option Nat) :
    (mergeHash now key fields ttl hash expiresAt memory).1 =
      (mergeHash now key fields ttl hash expiresAt other).1 := by
  unfold mergeHash
  cases ttl with
  | none => rfl
  | some ttl =>
      dsimp only
      cases deadline? now ttl <;> rfl

theorem Alike.answer_performSound {call : Call} (alike : Alike now call.keys memory other) :
    (performSound now call memory).1 = (performSound now call other).1 := by
  have own : ∀ {key}, call.keys = [key] → memory.live? now key = other.live? now key := fun keys =>
    alike.live _ (keys ▸ List.mem_singleton_self _)
  cases call with
  | get key =>
      rw [performSound, performSound, own rfl]
      cases other.live? now key with
      | none => rfl
      | some entry =>
          obtain ⟨stored, _⟩ := entry
          cases stored <;> rfl
  | set key value ttl =>
      cases ttl with
      | none => rfl
      | some ttl =>
          rw [performSound, performSound]
          cases deadline? now ttl <;> rfl
  | setMany writes => rfl
  | hashSet key fields ttl =>
      rw [performSound, performSound, own rfl]
      cases other.live? now key with
      | none => exact answer_mergeHash now key fields ttl _ _
      | some entry =>
          obtain ⟨stored, expiresAt⟩ := entry
          cases stored with
          | bytes value => rfl
          | hash hash => exact answer_mergeHash now key fields ttl hash expiresAt
  | hashGetAll key | hashGetMany key fields | hashGet key field =>
      rw [performSound, performSound, readHash, readHash, own rfl]
  | delete key => rw [performSound, performSound, own rfl]
  | setIfAbsent key token ttl =>
      rw [performSound, performSound, own rfl]
      cases (other.live? now key).isSome with
      | true => rfl
      | false => cases deadline : deadline? now ttl <;> rfl
  | expireIfEqual key token ttl =>
      rw [performSound, performSound, own rfl]
      cases (other.live? now key).filter (Entry.holds token) with
      | none => rfl
      | some entry => cases deadline : deadline? now ttl <;> rfl
  | deleteIfEqual key token =>
      rw [performSound, performSound, own rfl]
      cases (other.live? now key).filter (Entry.holds token) <;> rfl

/-- Stores that are alike under the keys of a call answer it alike. -/
theorem Alike.answer_perform {call : Call} (alike : Alike now call.keys memory other) :
    (memory.perform now call).1 = (other.perform now call).1 := by
  unfold perform
  rw [alike.poisoned]
  cases other.poisoned with
  | false => exact alike.answer_performSound
  | true =>
      rw [if_pos rfl, if_pos rfl]
      split
      · split <;> rfl
      · rfl

end Memory

/-- The answer to an action depends only on what the store shows under its keys. -/
theorem Action.Sends.answer_eq {α : Type} {client : Client} {now : Nat} {keys : List String}
    {ttl : Option Duration} {action : Action Memory α} (sends : action.Sends client now keys ttl)
    (clock : Nat) {memory other : Memory} (alike : Memory.Alike now keys memory other) :
    (action ⟨clock, memory⟩).1 = (action ⟨clock, other⟩).1 := by
  induction sends with
  | answer a => rfl
  | once call own _ =>
      subst own
      exact alike.answer_perform
  | retried call own _ =>
      subst own
      -- The clock on which the action is begun takes the place of the client's.
      have single := Client.retried_access { client with clock := clock } now call
      have first := single memory
      have second := single other
      change (client.access now).retried call ⟨clock, memory⟩ = _ at first
      change (client.access now).retried call ⟨clock, other⟩ = _ at second
      rw [first, second]
      split
      · rfl
      · exact alike.answer_perform
  | @checked _ _ check _ sends ih =>
      unfold Action.checked
      cases checked : check with
      | error failure => rfl
      | ok b => exact ih b checked
  | reading sends read ih =>
      unfold Action.reading
      dsimp only
      rw [ih]

/-- Stores that are alike under the keys of an operation answer it alike, unless it is a search. -/
theorem Operation.answer_run (client : Client) {now : Nat} {operation : Operation}
    (noSearch : operation.isSearch = false) {memory other : Memory}
    (alike : Memory.Alike now operation.keys memory other) :
    (client.run now operation memory).1 = (client.run now operation other).1 :=
  (sends_act client now noSearch).answer_eq client.clock alike

end Folio
