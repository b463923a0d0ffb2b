import Folio.Proofs.Access.Check
import Folio.Proofs.Access.Errand
import Folio.Store.Rehearsed

/-!
# Failed operations leave no trace

An operation whose arguments are not valid is refused before it does anything, whatever
the store behind it.  An operation that fails on a store in memory leaves it as it was:
calls fail before they change anything, and the only answers that may not be readable
are those of calls that look at a key.
-/

namespace Folio

variable {σ α : Type}

/-! ## Refused operations -/

namespace Operation

def Valid : Operation → Prop
  | put schema _ doc ttl | putFields schema _ doc ttl =>
      ValidName schema ∧ doc.Encodable ∧ ∀ d ∈ ttl, d.isZero = false
  | putMany schema docs => ValidName schema ∧ ∀ entry ∈ docs, entry.2.Encodable
  | get schema _ | delete schema _ | find schema _ | getAllFields schema _ | getFields schema _ _
  | getField schema _ _ | deleteFields schema _ => ValidName schema
  | acquire key _ ttl | extend key _ ttl => key ≠ "" ∧ ttl.isZero = false
  | release key _ => key ≠ ""

/-- Exactly the operations with valid arguments come to an errand. -/
theorem guards_errand (σ : Type) (operation : Operation) :
    Guards operation.Valid (operation.errand σ) := by
  cases operation with
  | put schema location doc ttl => exact (Whole.guards_preparePut schema location doc ttl).map _
  | putMany schema docs => exact (Whole.guards_preparePutMany schema docs).map _
  | putFields schema location doc ttl =>
      exact (ByField.guards_preparePut schema location doc ttl).map _
  | find schema pattern => exact (Find.guards_prepare schema pattern).map _
  | get schema location | delete schema location | getAllFields schema location
  | getFields schema location _ | getField schema location _ | deleteFields schema location =>
      exact (guards_documentKey schema location).map _
  | acquire key _ ttl | extend key _ ttl => exact (Lock.guards_check key ttl).map _
  | release key _ => exact (Lock.guards_checkKey key).map _

/-- What an operation is refused for does not depend on the store. -/
theorem errand_eq_error {operation : Operation} {failure : Failure} (other : Type)
    (refused : operation.errand σ = .error failure) : operation.errand other = .error failure := by
  cases operation <;> exact map_eq_error_iff.2 (map_eq_error_iff.1 refused)

/-- Whether an operation fails without asking any store for anything. -/
structure RefusedFor (operation : Operation) (failure : Failure) : Prop where
  refusal : failure.IsRefusal
  /-- Nothing is done and no time passes, whatever the store would answer. -/
  idle : ∀ {σ : Type} (access : Access σ) (world : World σ),
    operation.actOn access world = (.error failure, world)
  /-- A store that notes what it receives has nothing to note. -/
  unsent : ∀ {σ : Type} (behind : Store σ) (retry : RetryPolicy) (cancelAt : Option Nat)
    (wait : Wait) (world : World (Rehearsed σ)),
      (operation.actOn ⟨Rehearsed.wrap behind, retry, cancelAt, wait⟩ world).2.store.received =
        world.store.received

theorem exists_refusedFor {operation : Operation} (invalid : ¬operation.Valid) :
    ∃ failure, operation.RefusedFor failure := by
  have guards := operation.guards_errand Unit
  cases refused : operation.errand Unit with
  | ok errand => exact absurd (guards.passes.1 ⟨errand, refused⟩) invalid
  | error failure =>
      have idle : ∀ {σ : Type} (access : Access σ) (world : World σ),
          operation.actOn access world = (.error failure, world) := by
        intro σ access world
        rw [operation.actOn_eq, errand_eq_error σ refused]
        rfl
      refine ⟨failure, guards.refuses failure refused, idle, ?_⟩
      intro σ behind retry cancelAt wait world
      rw [idle]

end Operation

/-! ## Failed errands -/

/--
Whether an errand asks for no other time to live, and fails behind a call that succeeded only if the
call was a look at a key.
-/
def Errand.Careful (ttl : Option Duration) : Errand σ α → Prop
  | nothing _ | scan _ _ => True
  | once call _ => call.ttl? = ttl
  | retried call read =>
      call.ttl? = ttl ∧ ∀ told failure, read told = .error failure → ∃ key, call = .get key

theorem Operation.careful_errand {operation : Operation} {errand : Errand σ (operation.AnswerOn σ)}
    (wanted : operation.errand σ = .ok errand) : errand.Careful operation.ttl? := by
  cases operation with
  | putMany schema docs =>
      obtain ⟨entries, -, rfl⟩ := map_eq_ok_iff.1 wanted
      cases entries with
      | nil => exact trivial
      | cons first rest => exact ⟨rfl, nofun⟩
  | putFields schema location doc ttl =>
      obtain ⟨⟨key, fields⟩, -, rfl⟩ := map_eq_ok_iff.1 wanted
      cases fields with
      | nil => exact trivial
      | cons first rest => exact ⟨rfl, nofun⟩
  | get schema location =>
      obtain ⟨key, -, rfl⟩ := map_eq_ok_iff.1 wanted
      exact ⟨rfl, fun _ _ _ => ⟨key, rfl⟩⟩
  | find schema pattern =>
      obtain ⟨prepared, -, rfl⟩ := map_eq_ok_iff.1 wanted
      exact trivial
  | acquire | extend | release =>
      obtain ⟨_, -, rfl⟩ := map_eq_ok_iff.1 wanted
      exact rfl
  | put | delete | getAllFields | getFields | getField | deleteFields =>
      obtain ⟨_, -, rfl⟩ := map_eq_ok_iff.1 wanted
      exact ⟨rfl, nofun⟩

namespace Errand

variable {client : Client} {now : Nat} {memory : Memory} {ttl : Option Duration}
  {failure : Failure}

/-- An errand that fails leaves the store as it was. -/
theorem store_act_of_failed {errand : Errand Memory α} (careful : errand.Careful ttl)
    (onClock : Memory.OnClock now ttl)
    (failed : (errand.act (client.access now) ⟨client.clock, memory⟩).1 = .error failure) :
    (errand.act (client.access now) ⟨client.clock, memory⟩).2.store = memory := by
  cases errand with
  | nothing answer => rfl
  | scan pattern read => rfl
  | once call read =>
      obtain rfl := careful
      rcases bind_eq_error_iff.1 failed with refused | ⟨told, -, ⟨⟩⟩
      exact Memory.perform_failed onClock refused
  | retried call read =>
      obtain ⟨rfl, looks⟩ := careful
      have told := client.store_reading now call read memory
      split at told
      · exact congrArg Prod.snd told
      · have outcome := (congrArg Prod.fst told).symm.trans failed
        have kept : (memory.perform now call).2 = memory := by
          rcases bind_eq_error_iff.1 outcome with refused | ⟨answer, -, unreadable⟩
          · exact Memory.perform_failed onClock refused
          · obtain ⟨key, rfl⟩ := looks answer failure unreadable
            exact Memory.store_perform_get now key memory
        exact (congrArg Prod.snd told).trans kept

end Errand

namespace Operation

variable {client : Client} {now : Nat} {memory after : Memory}

/-- An operation that fails leaves the store as it was. -/
theorem eq_of_run_failed {operation : Operation} {failure : Failure}
    (onClock : Memory.OnClock now operation.ttl?)
    (failed : client.run now operation memory = (.error failure, after)) : after = memory := by
  rw [client.run_eq_errand] at failed
  cases wanted : operation.errand Memory with
  | error refusal =>
      rw [wanted] at failed
      exact (congrArg Prod.snd failed).symm
  | ok errand =>
      rw [wanted] at failed
      have store := Errand.store_act_of_failed (careful_errand wanted) onClock
        (congrArg Prod.fst failed)
      exact (congrArg Prod.snd failed).symm.trans store

/-- Neither beginning a search nor reading what it lists changes anything. -/
theorem find_keeps {schema : String} {pattern : Location}
    {reader : Memory → Listing Location × Memory}
    (begun : client.run now (.find schema pattern) memory = (.ok reader, after)) :
    after = memory ∧ ∀ later, (reader later).2 = later := by
  rw [client.run_eq_errand] at begun
  dsimp only [errand] at begun
  cases prepared : Find.prepare schema pattern with
  | error failure =>
      rw [prepared] at begun
      cases congrArg Prod.fst begun
  | ok found =>
      rw [prepared] at begun
      have reads := Except.ok.inj (congrArg Prod.fst begun)
      refine ⟨(congrArg Prod.snd begun).symm, fun later => ?_⟩
      rw [← reads]
      rfl

end Operation

/--
Whatever fails on a store in memory leaves it as it was, so nothing that is done later can tell: an
operation that is answered with an error, for whatever reason, and a search that lists one.  An
operation whose arguments are not valid is refused before any store is asked for anything.
-/
theorem failures_leave_no_trace :
    (∀ (client : Client) (now : Nat) (operation : Operation) (memory after : Memory)
      (failure : Failure), Memory.OnClock now operation.ttl? →
        client.run now operation memory = (.error failure, after) → after = memory) ∧
    (∀ (client : Client) (now : Nat) (schema : String) (pattern : Location)
      (memory after : Memory) (reader : Memory → Listing Location × Memory),
        client.run now (.find schema pattern) memory = (.ok reader, after) →
          after = memory ∧ ∀ later, (reader later).2 = later) ∧
    ∀ operation : Operation, ¬operation.Valid → ∃ failure, operation.RefusedFor failure := by
  refine ⟨?_, ?_, ?_⟩
  · intro client now operation memory after failure onClock failed
    exact Operation.eq_of_run_failed onClock failed
  · intro client now schema pattern memory after reader begun
    exact Operation.find_keeps begun
  · intro operation invalid
    exact Operation.exists_refusedFor invalid

/--
Fields are not merged into bytes, nor is the deadline of the bytes moved.  A batch whose second
document is not a number in its only field is refused.
-/
theorem failures_leave_no_trace_example :
    let client : Client := ⟨.usual, none, 0, .exact⟩
    let place : Location := ⟨["a"], by decide, by decide⟩
    let doc : Document := .ofList [("n", .integer 1)]
    let memory := Memory.empty.put "s:a" ⟨.bytes [49], some 9⟩
    let merge : Operation := .putFields "s" place doc (some ⟨7, by decide⟩)
    let batch : Operation :=
      .putMany "s" [(place, doc), (place, .ofList [("x", .float .nan)]), (place, doc)]
    Memory.OnClock 5 merge.ttl? ∧ (client.run 5 merge memory).1 = .error Memory.wrongKind ∧
      (client.run 5 merge memory).2 = memory ∧
      ¬batch.Valid ∧ ∃ failure, batch.RefusedFor failure := by
  intro client place doc memory merge batch
  have onClock : Memory.OnClock 5 merge.ttl? := by
    rintro d ⟨⟩
    decide
  have failed : (client.run 5 merge memory).1 = .error Memory.wrongKind := by decide +kernel
  have invalid : ¬batch.Valid := by
    intro valid
    have encodable := valid.2 (place, .ofList [("x", .float .nan)]) (by simp)
    have finite := (encodable (.float .nan) (List.mem_singleton_self _)).1
    cases finite
  exact ⟨onClock, failed,
    failures_leave_no_trace.1 client 5 merge memory _ Memory.wrongKind onClock (Prod.ext failed rfl),
    invalid, failures_leave_no_trace.2.2 batch invalid⟩

end Folio
