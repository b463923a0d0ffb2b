import Folio.Proofs.Access.Operation
import Folio.Proofs.Store.Replay
import Folio.Store.Lossy
import Mathlib.Control.Monad.Basic

/-!
# Retried writes

Over a lossy connection a write may reach the store several times, and its caller
may be told of a failure although the write was made.  Neither shows in the store:
however the attempts went, it is left as by one write at the last moment at which it
was reached, or as it was if it was never reached.
-/

namespace Folio

namespace Lossy

/-! ## One attempt -/

theorem ne_of_unheard_ne {α : Type} {reason : String} {result : Except Failure α}
    (survived : unheard reason result ≠ .error .deadlineOverflow) :
    result ≠ .error .deadlineOverflow := by
  rintro rfl
  exact survived rfl

/-- An attempt either leaves the store alone or is one more moment at which it was reached. -/
theorem perform_cases (course : Nat → Delivery) (call : Call) (state : Lossy) :
    ((perform course call state).2.reached = state.reached ∧
      (perform course call state).2.memory = state.memory) ∨
    ∃ now, (perform course call state).2.reached = now :: state.reached ∧
      (perform course call state).2.memory = (state.memory.perform now call).2 ∧
      ((perform course call state).1 ≠ .error .deadlineOverflow →
        (state.memory.perform now call).1 ≠ .error .deadlineOverflow) := by
  unfold perform
  obtain ⟨now, fate⟩ := course state.attempts.length
  cases fate with
  | answered => exact Or.inr ⟨now, rfl, rfl, id⟩
  | replyLost reason => exact Or.inr ⟨now, rfl, rfl, ne_of_unheard_ne⟩
  | requestLost reason => exact Or.inl ⟨rfl, rfl⟩

/-! ## A run -/

/--
Whether a store is left as by a call that was performed on `memory` at the last moment at which the
store was reached, and was not broken off there.
-/
def Replayed (memory : Memory) (call : Call) (state : Lossy) : Prop :=
  match state.reached with
  | [] => state.memory = memory
  | last :: _ =>
      state.memory = (memory.perform last call).2 ∧
        (memory.perform last call).1 ≠ .error .deadlineOverflow

/-- One more attempt of a write leaves the store as by one write again. -/
theorem replayed_perform {memory : Memory} {call : Call} (writes : call.Writes)
    (course : Nat → Delivery) {state : Lossy}
    (before : call.Steady memory state.reached → Replayed memory call state)
    (survived : (perform course call state).1 ≠ .error .deadlineOverflow)
    (steady : call.Steady memory (perform course call state).2.reached) :
    Replayed memory call (perform course call state).2 := by
  obtain ⟨reached, kept⟩ | ⟨now, reached, written, broken⟩ := perform_cases course call state
  · rw [reached] at steady
    have replayed := before steady
    unfold Replayed at replayed ⊢
    rw [reached, kept]
    exact replayed
  · have survives := broken survived
    rw [reached] at steady
    have replayed := before (steady.of_subset (List.subset_cons_self now state.reached))
    unfold Replayed at replayed ⊢
    rw [reached, written]
    dsimp only
    cases earlier : state.reached with
    | nil =>
        rw [earlier] at replayed
        rw [replayed] at survives ⊢
        exact ⟨rfl, survives⟩
    | cons last rest =>
        rw [earlier] at replayed steady
        obtain ⟨left, first⟩ := replayed
        rw [left] at survives ⊢
        have between : [last, now] ⊆ now :: last :: rest := by simp
        have again := Memory.perform_perform writes (steady.of_subset between) first survives
        rw [again] at survives ⊢
        exact ⟨rfl, survives⟩

/-- A write that is retried leaves the store as by one write, unless it is broken off. -/
theorem replayed_retried {call : Call} (writes : call.Writes) (course : Nat → Delivery)
    (retry : RetryPolicy) (cancelAt : Option Nat) (wait : Wait) (clock : Nat) (memory : Memory) :
    let run := Access.retried ⟨store course, retry, cancelAt, wait⟩ call ⟨clock, start memory⟩
    run.1 ≠ .error .deadlineOverflow → call.Steady memory run.2.store.reached →
      Replayed memory call run.2.store := by
  intro run survived steady
  have preserved : ∀ state, (call.Steady memory state.reached → Replayed memory call state) →
      (perform course call state).1 ≠ .error .deadlineOverflow →
        call.Steady memory (perform course call state).2.reached →
          Replayed memory call (perform course call state).2 :=
    fun state before survived => replayed_perform writes course before survived
  exact retry.holds_runFrom wait cancelAt rfl (fun _ => rfl) preserved _ _ clock
    (fun _ => (rfl : Replayed memory call (start memory))) survived steady

end Lossy

/-! ## Writes of documents -/

inductive Write where
  | put (schema : String) (location : Location) (doc : Document) (ttl : Option Duration)
  | putMany (schema : String) (docs : List (Location × Document))
  | putFields (schema : String) (location : Location) (doc : Document) (ttl : Option Duration)

namespace Write

def act {σ : Type} (access : Access σ) : Write → Action σ Unit
  | put schema location doc ttl => Whole.put access schema location doc ttl
  | putMany schema docs => Whole.putMany access schema docs
  | putFields schema location doc ttl => ByField.put access schema location doc ttl

/-- What a client comes to with a write over a lossy connection, and the store behind it. -/
def retried (write : Write) (client : Client) (course : Nat → Delivery) (memory : Memory) :
    Except Failure Unit × Lossy :=
  let (result, world) := write.act ⟨Lossy.store course, client.retry, client.cancelAt, client.wait⟩
    ⟨client.clock, Lossy.start memory⟩
  (result, world.store)

/-- The store behind a write that is made exactly once, at the moment `now`. -/
def once (write : Write) (now : Nat) (memory : Memory) : Memory :=
  (write.act ⟨Memory.store now, .usual, none, .exact⟩ ⟨0, memory⟩).2.store

/--
Whether nothing expires between some moments at which a write by field is made: the entry of the
document is there at all of them or at none, and the time to live outlasts them.
-/
def Steady (memory : Memory) (moments : List Nat) : Write → Prop
  | putFields schema location _ ttl => ∀ key, documentKey schema location = .ok key →
      (∀ entry ∈ memory.entries.get? key, ∀ a ∈ moments, ∀ b ∈ moments,
        entry.isLive a = entry.isLive b) ∧
      ∀ d ∈ ttl, ∀ a ∈ moments, ∀ b ∈ moments, b < a + d.nanos
  | _ => True

/-- Whether a write does what a call does that may be retried, however the store is reached. -/
structure Sends (write : Write) (call : Call) : Prop where
  writes : call.Writes
  steady : ∀ memory moments, write.Steady memory moments → call.Steady memory moments
  same : ∀ (σ : Type) (access : Access σ) (world : World σ),
    (write.act access world).2 = (access.retried call world).2 ∧
      ∀ failure, (access.retried call world).1 = .error failure →
        (write.act access world).1 = .error failure

/-- A write sends one call, or it ends before it sends anything. -/
theorem act_cases (write : Write) :
    (∃ result, ∀ (σ : Type) (access : Access σ) (world : World σ),
      write.act access world = (result, world)) ∨ ∃ call, write.Sends call := by
  cases write with
  | put schema location doc ttl =>
      cases prepared : Whole.preparePut schema location doc ttl with
      | error failure =>
          refine Or.inl ⟨.error failure, fun σ access world => ?_⟩
          rw [act, Whole.put, prepared]
          rfl
      | ok written =>
          refine Or.inr ⟨.set written.1 written.2 ttl, .set _ _ _, fun _ _ _ => trivial, ?_⟩
          intro σ access world
          rw [act, Whole.put, prepared]
          exact ⟨rfl, fun _ => id⟩
  | putMany schema docs =>
      cases prepared : Whole.preparePutMany schema docs with
      | error failure =>
          refine Or.inl ⟨.error failure, fun σ access world => ?_⟩
          rw [act, Whole.putMany, prepared]
          rfl
      | ok written =>
          cases none : written.isEmpty with
          | true =>
              refine Or.inl ⟨.ok (), fun σ access world => ?_⟩
              rw [act, Whole.putMany, prepared, Action.checked_ok, none]
              rfl
          | false =>
              refine Or.inr ⟨.setMany written, .setMany _, fun _ _ _ => trivial, ?_⟩
              intro σ access world
              rw [act, Whole.putMany, prepared, Action.checked_ok, none]
              exact ⟨rfl, fun _ => id⟩
  | putFields schema location doc ttl =>
      cases prepared : ByField.preparePut schema location doc ttl with
      | error failure =>
          refine Or.inl ⟨.error failure, fun σ access world => ?_⟩
          rw [act, ByField.put, prepared]
          rfl
      | ok written =>
          obtain ⟨key, fields⟩ := written
          have keyed := ByField.of_preparePut prepared
          cases none : fields.isEmpty with
          | true =>
              refine Or.inl ⟨.ok (), fun σ access world => ?_⟩
              rw [act, ByField.put, prepared, Action.checked_ok]
              dsimp only
              rw [none]
              rfl
          | false =>
              refine Or.inr ⟨.hashSet key fields ttl, .hashSet _ _ _,
                fun memory moments steady => steady key keyed, ?_⟩
              intro σ access world
              rw [act, ByField.put, prepared, Action.checked_ok]
              dsimp only
              rw [none]
              exact ⟨rfl, fun _ => id⟩

/-- A write that sends a call leaves what the call does. -/
theorem Sends.once {write : Write} {call : Call} (sends : write.Sends call) (now : Nat)
    (memory : Memory) : write.once now memory = (memory.perform now call).2 := by
  have single := Client.store_retried ⟨.usual, none, 0, .exact⟩ now call memory
  rw [Write.once, (sends.same Memory _ _).1]
  exact congrArg Prod.snd single

/--
A write that is retried is one write.  Whatever is lost on the way, the store is left as by exactly
one write at the last moment at which it was reached, or as it was if it was never reached, and this
no matter what the client is told, unless the write is broken off.
-/
theorem retried_write_is_one_write (write : Write) (client : Client) (course : Nat → Delivery)
    (memory : Memory) (survived : (write.retried client course memory).1 ≠ .error .deadlineOverflow)
    (steady : write.Steady memory (write.retried client course memory).2.reached) :
    (write.retried client course memory).2.memory =
      match (write.retried client course memory).2.reached with
      | [] => memory
      | last :: _ => write.once last memory := by
  obtain ⟨result, nothing⟩ | ⟨call, sends⟩ := write.act_cases
  · rw [retried, nothing]
    rfl
  · have run := sends.same Lossy ⟨Lossy.store course, client.retry, client.cancelAt, client.wait⟩
      ⟨client.clock, Lossy.start memory⟩
    have behind : (write.retried client course memory).2 = _ := congrArg World.store run.1
    rw [behind] at steady ⊢
    have replayed := Lossy.replayed_retried sends.writes course client.retry client.cancelAt
      client.wait client.clock memory (fun broken => survived (run.2 _ broken))
      (sends.steady _ _ steady)
    unfold Lossy.Replayed at replayed
    split at replayed
    · exact replayed
    · exact replayed.1.trans (sends.once _ memory).symm

/-- A client that is told of a failure has made the write all the same, as if once at the end. -/
theorem retried_write_is_one_write_example :
    let client : Client := ⟨.usual, none, 0, .exact⟩
    let place : Location := ⟨["a"], by decide, by decide⟩
    let write : Write :=
      .putFields "notes" place (Document.empty.set "n" (.integer 3)) (some ⟨9, by decide⟩)
    let course : Nat → Delivery := fun n =>
      if n = 0 then ⟨3, .replyLost "timed out"⟩
      else if n = 1 then ⟨4, .requestLost "refused"⟩ else ⟨7, .replyLost "timed out"⟩
    let memory := Memory.empty.put "notes:a" ⟨.hash (.ofList [("m", "1")]), some 8⟩
    (write.retried client course memory).1 = .error (.exhausted 3 (.transient "timed out")) ∧
      (write.retried client course memory).2.reached = [7, 3] ∧
      (write.retried client course memory).2.memory = write.once 7 memory := by
  intro client place write course memory
  have told : (write.retried client course memory).1 =
      .error (.exhausted 3 (.transient "timed out")) := by decide +kernel
  have reached : (write.retried client course memory).2.reached = [7, 3] := by decide +kernel
  have steady : write.Steady memory (write.retried client course memory).2.reached := by
    rw [reached]
    intro key _
    constructor
    · intro entry held
      rw [Memory.get?_put] at held
      split at held
      · cases held
        decide
      · cases held
    · rintro d ⟨⟩
      decide
  have one := retried_write_is_one_write write client course memory (by rw [told]; nofun) steady
  rw [reached] at one
  exact ⟨told, reached, one⟩

end Write

end Folio
