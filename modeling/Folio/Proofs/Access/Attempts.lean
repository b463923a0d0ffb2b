import Folio.Proofs.Access.Failed
import Folio.Proofs.Access.Find
import Folio.Proofs.Access.Lease
import Folio.Proofs.Document.Merge
import Folio.Proofs.Retry.Timeline

/-!
# What is retried and what is not

Operations on documents send one call again and again, with the same arguments, until
an attempt is final or none is left.  Operations on locks send one call once and answer
whatever it came to.  A search begins one scan and ends with the failure that ended the
scan.  All this is seen by a store that notes what it receives.
-/

namespace Folio

variable {σ α : Type}

/-! ## Notes -/

namespace Rehearsed

variable (behind : Store σ)

/-- A call is noted, whether it reaches the store behind or fails as planned. -/
theorem received_perform (call : Call) (state : Rehearsed σ) :
    ((wrap behind).perform call state).2.received = .call call :: state.received := by
  obtain ⟨store, plan, scripts, received⟩ := state
  cases plan with
  | nil => rfl
  | cons next plan => cases next <;> rfl

theorem received_scan (pattern : String) (state : Rehearsed σ) :
    ((wrap behind).scan pattern state).2.received = .scan pattern :: state.received := by
  obtain ⟨store, plan, scripts, received⟩ := state
  cases scripts <;> rfl

/-- Reading a listing asks for nothing else. -/
theorem received_reader (pattern : String) (state later : Rehearsed σ) :
    (((wrap behind).scan pattern state).1 later).2.received = later.received := by
  obtain ⟨store, plan, scripts, received⟩ := state
  cases scripts <;> rfl

/-- How somebody whom nobody cancels reaches a rehearsed store. -/
def access (policy : RetryPolicy) (wait : Wait) : Access (Rehearsed σ) :=
  ⟨wrap behind, policy, none, wait⟩

/-- Every attempt sends the same call. -/
theorem received_nth (policy : RetryPolicy) (wait : Wait) (call : Call) (state : Rehearsed σ)
    (n : Nat) :
    (Attempt.nth ((access behind policy wait).attempt call) state n).state.received =
      List.replicate (n + 1) (.call call) ++ state.received := by
  induction n generalizing state with
  | zero => exact received_perform behind call state
  | succ n ih =>
      have first := received_perform behind call state
      have rest := ih ((access behind policy wait).attempt call state).state
      rw [List.replicate_succ', List.append_assoc, Attempt.nth, rest]
      exact congrArg _ first

end Rehearsed

/-! ## Errands -/

inductive Dealing where
  | nothing
  | retried
  | once
  | scan

namespace Operation

def dealing : Operation → Dealing
  | putMany _ docs => if docs.isEmpty then .nothing else .retried
  | putFields _ _ doc _ => if doc.isEmpty then .nothing else .retried
  | put _ _ _ _ | get _ _ | delete _ _ | getAllFields _ _ | getFields _ _ _ | getField _ _ _
  | deleteFields _ _ => .retried
  | acquire _ _ _ | extend _ _ _ | release _ _ => .once
  | find _ _ => .scan

end Operation

namespace Errand

def dealing : Errand σ α → Dealing
  | nothing _ => .nothing
  | retried _ _ => .retried
  | once _ _ => .once
  | scan _ _ => .scan

/-- What comes of an errand over a rehearsed store, if nobody cancels it. -/
def Done (behind : Store σ) (policy : RetryPolicy) (wait : Wait) (state : Rehearsed σ)
    (result : Except Failure α) (after : Rehearsed σ) : Errand (Rehearsed σ) α → Prop
  | nothing answer => result = .ok answer ∧ after = state
  | retried call read =>
      let attempt := (Rehearsed.access behind policy wait).attempt call
      ∃ last, IsLeast {n | policy.EndsAfter attempt state n} last ∧
        after = (Attempt.nth attempt state last).state ∧
        after.received = List.replicate (last + 1) (.call call) ++ state.received ∧
        result = (policy.verdict (Attempt.nth attempt state last).result).bind read
  | once call read =>
      let told := (Rehearsed.wrap behind).perform call state
      after = told.2 ∧ after.received = .call call :: state.received ∧ result = told.1.map read
  | scan pattern read =>
      let begun := (Rehearsed.wrap behind).scan pattern state
      after = begun.2 ∧ after.received = .scan pattern :: state.received ∧
        result = .ok (read begun.1)

/-- An errand that is done comes to what it should, and is noted. -/
theorem done_act (behind : Store σ) (policy : RetryPolicy) (wait : Wait) (clock : Nat)
    (state : Rehearsed σ) (errand : Errand (Rehearsed σ) α) :
    let done := errand.act (Rehearsed.access behind policy wait) ⟨clock, state⟩
    errand.Done behind policy wait state done.1 done.2.store := by
  intro done
  cases errand with
  | nothing answer => exact ⟨rfl, rfl⟩
  | retried call read =>
      obtain ⟨last, runs⟩ :=
        policy.exists_runsUntil wait ((Rehearsed.access behind policy wait).attempt call) clock state
      refine ⟨last, runs.first, runs.state, ?_, ?_⟩
      · exact (congrArg Rehearsed.received runs.state).trans
          (Rehearsed.received_nth behind policy wait call state last)
      · exact congrArg (Except.bind · read) runs.result
  | once call read =>
      refine ⟨rfl, Rehearsed.received_perform behind call state, ?_⟩
      change ((Rehearsed.wrap behind).perform call state).1.bind _ = _
      cases ((Rehearsed.wrap behind).perform call state).1 <;> rfl
  | scan pattern read =>
      exact ⟨rfl, Rehearsed.received_scan behind pattern state, rfl⟩

end Errand

/-! ## Operations -/

/-- The entries of a batch are none iff there are no documents in it. -/
theorem Whole.isEmpty_of_preparePutMany {schema : String} {docs : List (Location × Document)}
    {written : List (String × Bytes)} (prepared : preparePutMany schema docs = .ok written) :
    written.isEmpty = docs.isEmpty := by
  have entered := of_preparePutMany prepared
  cases docs with
  | nil =>
      cases entered
      rfl
  | cons first rest =>
      obtain ⟨head, tail, -, -, rfl⟩ := entries_cons_eq_ok_iff.1 entered
      rfl

/-- The fields of a document are none iff it is empty. -/
theorem ByField.isEmpty_of_preparePut {schema : String} {location : Location} {doc : Document}
    {ttl : Option Duration} {written : String × List (String × String)}
    (prepared : preparePut schema location doc ttl = .ok written) :
    written.2.isEmpty = doc.isEmpty := by
  obtain ⟨_, -, checked⟩ := bind_eq_ok_iff.1 prepared
  obtain ⟨key, -, more⟩ := bind_eq_ok_iff.1 checked
  obtain ⟨fields, encoded, ⟨⟩⟩ := bind_eq_ok_iff.1 more
  cases table : doc.toFieldTable with
  | error obstacle =>
      rw [table] at encoded
      cases encoded
  | ok entries =>
      rw [table] at encoded
      cases encoded
      exact Document.isEmpty_table table

namespace Operation

/-- An errand deals with the store as its operation does: only empty writes do not reach it. -/
theorem dealing_errand {operation : Operation} {errand : Errand σ (operation.AnswerOn σ)}
    (wanted : operation.errand σ = .ok errand) : errand.dealing = operation.dealing := by
  cases operation with
  | putMany schema docs =>
      obtain ⟨entries, prepared, rfl⟩ := map_eq_ok_iff.1 wanted
      rw [dealing, ← Whole.isEmpty_of_preparePutMany prepared]
      cases entries.isEmpty <;> rfl
  | putFields schema location doc ttl =>
      obtain ⟨⟨key, fields⟩, prepared, rfl⟩ := map_eq_ok_iff.1 wanted
      rw [dealing, ← ByField.isEmpty_of_preparePut prepared]
      dsimp only
      cases fields.isEmpty <;> rfl
  | _ =>
      obtain ⟨_, -, rfl⟩ := map_eq_ok_iff.1 wanted
      rfl

/-- An operation with valid arguments does its errand. -/
theorem exists_done (behind : Store σ) (policy : RetryPolicy) (wait : Wait) (clock : Nat)
    (state : Rehearsed σ) {operation : Operation} (valid : operation.Valid) :
    ∃ errand, operation.errand (Rehearsed σ) = .ok errand ∧ errand.dealing = operation.dealing ∧
      let done := operation.actOn (Rehearsed.access behind policy wait) ⟨clock, state⟩
      errand.Done behind policy wait state done.1 done.2.store := by
  obtain ⟨errand, wanted⟩ := (operation.guards_errand (Rehearsed σ)).passes.2 valid
  refine ⟨errand, wanted, dealing_errand wanted, ?_⟩
  rw [operation.actOn_eq, wanted]
  exact errand.done_act behind policy wait clock state

end Operation

/-- What reaches a store that notes it, and what comes back, if nobody cancels anything. -/
structure Dealings (behind : Store σ) (policy : RetryPolicy) (wait : Wait) (clock : Nat)
    (state : Rehearsed σ) : Prop where
  /-- With valid arguments the errand is done; only writes of nothing are no call. -/
  errand : ∀ operation : Operation, operation.Valid →
    ∃ errand, operation.errand (Rehearsed σ) = .ok errand ∧ errand.dealing = operation.dealing ∧
      let done := operation.actOn (Rehearsed.access behind policy wait) ⟨clock, state⟩
      errand.Done behind policy wait state done.1 done.2.store
  /-- What a lock operation comes to is what its call came to, even if another might help. -/
  acquire : ∀ (key token : String) (ttl : Duration), key ≠ "" → ttl.isZero = false →
    (Lock.acquire (Rehearsed.access behind policy wait) key token ttl ⟨clock, state⟩).1 =
      ((Rehearsed.wrap behind).perform (.setIfAbsent key token ttl) state).1
  extend : ∀ (key token : String) (ttl : Duration), key ≠ "" → ttl.isZero = false →
    (Lock.extend (Rehearsed.access behind policy wait) key token ttl ⟨clock, state⟩).1 =
      ((Rehearsed.wrap behind).perform (.expireIfEqual key token ttl) state).1
  release : ∀ key token : String, key ≠ "" →
    (Lock.release (Rehearsed.access behind policy wait) key token ⟨clock, state⟩).1 =
      ((Rehearsed.wrap behind).perform (.deleteIfEqual key token) state).1
  /-- A search lists what its scan lists, ends with the failure of the scan and sends nothing. -/
  find : ∀ (schema : Schema) (pattern : Location), ∃ compiled reader,
    LocationPattern.compile pattern = .ok compiled ∧
    (Find.start (Rehearsed.access behind policy wait) schema.name pattern ⟨clock, state⟩).1 =
      .ok reader ∧
    ∀ later,
      let keys := ((Rehearsed.wrap behind).scan (schema.scanText pattern) state).1 later
      reader later = (⟨Find.locations schema compiled keys.1.found, keys.1.failure⟩, keys.2) ∧
        (reader later).2.received = later.received

/--
An operation on documents sends the same call until an attempt is final or all are made, and answers
what the last one came to.  An operation on locks sends one call, and a search begins one scan.
-/
theorem attempts_of_operations (behind : Store σ) (policy : RetryPolicy) (wait : Wait) (clock : Nat)
    (state : Rehearsed σ) : Dealings behind policy wait clock state := by
  constructor
  case errand => exact fun _ valid => Operation.exists_done behind policy wait clock state valid
  case acquire =>
    intro key token ttl nonempty positive
    unfold Lock.acquire
    rw [Lock.check_ok nonempty positive]
    rfl
  case extend =>
    intro key token ttl nonempty positive
    unfold Lock.extend
    rw [Lock.check_ok nonempty positive]
    rfl
  case release =>
    intro key token nonempty
    unfold Lock.release
    rw [Lock.checkKey_ok nonempty]
    rfl
  case find =>
    intro schema pattern
    let compiled : LocationPattern := ⟨pattern.segments.map compiledSegment⟩
    let readKeys := ((Rehearsed.wrap behind).scan (schema.scanText pattern) state).1
    refine ⟨compiled, Find.reader schema compiled readKeys, compile_location pattern, ?_, ?_⟩
    · unfold Find.start
      rw [Find.prepare_name]
      rfl
    · intro later
      exact ⟨rfl, Rehearsed.received_reader behind (schema.scanText pattern) state later⟩

/-- The first attempt fails for the moment, and the second one finds nothing to be removed. -/
theorem attempts_of_operations_example :
    let place : Location := ⟨["a"], by decide, by decide⟩
    let state := { Rehearsed.start Memory.empty with plan := [some (.transient "down")] }
    let removal : Operation := .delete "s" place
    let done := removal.actOn (Rehearsed.access (Memory.store 0) .usual .exact) ⟨0, state⟩
    removal.Valid ∧ done.1 = .ok false ∧
      done.2.store.received = [.call (.delete "s:a"), .call (.delete "s:a")] ∧
      ∃ errand, removal.errand (Rehearsed Memory) = .ok errand ∧
        errand.dealing = removal.dealing ∧
        errand.Done (Memory.store 0) .usual .exact state done.1 done.2.store := by
  intro place state removal done
  have valid : removal.Valid := ⟨by decide, by decide⟩
  have answer : done.1 = .ok false := by decide +kernel
  have received : done.2.store.received = [.call (.delete "s:a"), .call (.delete "s:a")] := by
    decide +kernel
  exact ⟨valid, answer, received,
    (attempts_of_operations (Memory.store 0) .usual .exact 0 state).errand removal valid⟩

end Folio
