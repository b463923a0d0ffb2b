import Folio.Proofs.Access.Answer
import Folio.Proofs.Access.Check
import Folio.Proofs.Access.Lease
import Folio.Proofs.Store.Prompt

/-!
# Writes with a deadline

A write whose deadline is on the clock is answered, it is made as a whole or not at
all, and it does not show under other keys.  Beyond the end of the clock only the write
of a whole document leaves the store alone: the others have it in their hands when they
are broken off, so that it is poisoned, and fields are merged without their deadline.
-/

namespace Folio

/-! ## Answers -/

/-- Whether something was answered, with a value or with an error, instead of being broken off. -/
def Unbroken {α : Type} (outcome : Except Failure α) : Prop :=
  ∀ failure, outcome = .error failure → failure.isBreakOff = false

/-- A check that refuses arguments is not broken off. -/
theorem Guards.unbroken {α : Type} {valid : Prop} {check : Except Failure α}
    (guards : Guards valid check) : Unbroken check :=
  fun failure failed => (guards.refuses failure failed).answered

/-! ## Writes -/

inductive TimedWrite where
  | put (schema : String) (location : Location) (doc : Document) (ttl : Duration)
  | putFields (schema : String) (location : Location) (doc : Document) (ttl : Duration)
  | acquire (key token : String) (ttl : Duration)
  | extend (key token : String) (ttl : Duration)

namespace TimedWrite

def operation : TimedWrite → Operation
  | put schema location doc ttl => .put schema location doc (some ttl)
  | putFields schema location doc ttl => .putFields schema location doc (some ttl)
  | acquire key token ttl => .acquire key token ttl
  | extend key token ttl => .extend key token ttl

def ttl : TimedWrite → Duration
  | put _ _ _ ttl | putFields _ _ _ ttl | acquire _ _ ttl | extend _ _ ttl => ttl

/-- What is answered if the write was made, or if there was nothing to be written. -/
def told (made : Bool) : (write : TimedWrite) → write.operation.Answer
  | put _ _ _ _ | putFields _ _ _ _ => ()
  | acquire _ _ _ | extend _ _ _ => made

/-- The key that is written and what it is to hold, unless there is nothing to be written. -/
def stores (now : Nat) (memory : Memory) : TimedWrite → Option (String × Stored)
  | put schema location doc ttl =>
      (Whole.preparePut schema location doc (some ttl)).toOption.map fun (key, blob) =>
        (key, .bytes blob)
  | putFields schema location doc ttl =>
      (ByField.preparePut schema location doc (some ttl)).toOption.bind fun (key, fields) =>
        if fields.isEmpty then none
        else (memory.mergeBase? now key).map fun (hash, _) => (key, .hash (hash.insertMany fields))
  | acquire key token _ =>
      if (memory.live? now key).isSome then none else some (key, .bytes (Text.utf8 token))
  | extend key token _ =>
      ((memory.live? now key).filter (Entry.holds token)).map fun entry => (key, entry.stored)

/-- What a write may come to that is neither broken off nor left half done. -/
inductive WholeOrNothing (write : TimedWrite) (now : Nat) (memory : Memory) :
    Except Failure write.operation.Answer × Memory → Prop
  | failed {failure : Failure} (unbroken : failure.isBreakOff = false) :
      WholeOrNothing write now memory (.error failure, memory)
  /-- There was nothing to be written, and nothing else that counts has changed. -/
  | nothing {after : Memory} (idle : write.stores now memory = none)
      (same : after.prompt now = memory.prompt now) :
      WholeOrNothing write now memory (.ok (write.told false), after)
  /-- The contents and the deadline were written, and nothing else has changed. -/
  | made {key : String} {content : Stored} (stores : write.stores now memory = some (key, content)) :
      WholeOrNothing write now memory
        (.ok (write.told true), memory.put key ⟨content, some (now + write.ttl.nanos)⟩)

/-- Whether a write did no harm: to itself, to the store, and to what others do under other keys. -/
structure Harmless (write : TimedWrite) (now : Nat) (memory : Memory)
    (result : Except Failure write.operation.Answer × Memory) : Prop where
  outcome : write.WholeOrNothing now memory result
  poisoned : result.2.poisoned = memory.poisoned
  /-- Other keys hold what they held. -/
  frame : ∀ key, key ∉ write.operation.keys →
    result.2.entries.get? key = memory.entries.get? key
  /-- Whatever is done later under other keys is answered as if the write had not been made. -/
  others : ∀ step : Step, step.operation.isSearch = false →
    (∀ key ∈ step.operation.keys, key ∉ write.operation.keys) →
      (step.run result.2).1 = (step.run memory).1

end TimedWrite

/-! ## Each write -/

namespace TimedWrite

variable {client : Client} {now : Nat} {memory : Memory} {schema : String} {location : Location}
  {doc : Document} {key token : String} {ttl : Duration}

theorem outcome_put (onClock : Memory.OnClock now (some ttl)) :
    (put schema location doc ttl).WholeOrNothing now memory
      (client.run now (.put schema location doc (some ttl)) memory) := by
  rw [Client.run_put_eq]
  cases prepared : Whole.preparePut schema location doc (some ttl) with
  | error failure => exact .failed ((Whole.guards_preparePut _ _ _ _).unbroken failure prepared)
  | ok written =>
      have stores : (put schema location doc ttl).stores now memory =
          some (written.1, .bytes written.2) := by
        simp only [stores, prepared, Except.toOption, Option.map_some]
      dsimp only
      split
      · exact .failed rfl
      · cases poisoned : memory.poisoned with
        | true =>
            rw [Memory.perform_poisoned poisoned onClock]
            exact .failed rfl
        | false =>
            rw [Memory.perform_set poisoned written.1 written.2 onClock]
            exact .made stores

theorem outcome_putFields (onClock : Memory.OnClock now (some ttl)) :
    (putFields schema location doc ttl).WholeOrNothing now memory
      (client.run now (.putFields schema location doc (some ttl)) memory) := by
  rw [Client.run_putFields_eq]
  cases prepared : ByField.preparePut schema location doc (some ttl) with
  | error failure => exact .failed ((ByField.guards_preparePut _ _ _ _).unbroken failure prepared)
  | ok written =>
      obtain ⟨key, fields⟩ := written
      dsimp only
      split
      · rename_i empty
        have idle : (putFields schema location doc ttl).stores now memory = none := by
          simp only [stores, prepared, Except.toOption, Option.bind_some, empty, if_true]
        exact .nothing idle rfl
      · rename_i nonempty
        have stores : (putFields schema location doc ttl).stores now memory =
            (memory.mergeBase? now key).map fun (hash, _) => (key, .hash (hash.insertMany fields)) := by
          simp only [stores, prepared, Except.toOption, Option.bind_some, nonempty,
            Bool.false_eq_true, if_false]
        split
        · exact .failed rfl
        · cases poisoned : memory.poisoned with
          | true =>
              rw [Memory.perform_poisoned poisoned onClock]
              exact .failed rfl
          | false =>
              cases base : memory.mergeBase? now key with
              | none =>
                  rw [Memory.perform_hashSet_eq poisoned, base]
                  exact .failed rfl
              | some found =>
                  rw [base, Option.map_some] at stores
                  rw [Memory.perform_hashSet poisoned base fields onClock]
                  exact .made stores

theorem outcome_acquire (onClock : Memory.OnClock now (some ttl)) :
    (acquire key token ttl).WholeOrNothing now memory
      (client.run now (.acquire key token ttl) memory) := by
  rw [Client.run_acquire]
  cases checked : Lock.check key ttl with
  | error failure => exact .failed ((Lock.guards_check _ _).unbroken failure checked)
  | ok _ =>
      dsimp only
      cases poisoned : memory.poisoned with
      | true =>
          rw [Memory.perform_poisoned poisoned onClock]
          exact .failed rfl
      | false =>
          rw [Memory.perform_acquire poisoned onClock]
          split
          · rename_i held
            exact .nothing (if_pos held) rfl
          · rename_i free
            exact .made (if_neg free)

theorem outcome_extend (onClock : Memory.OnClock now (some ttl)) :
    (extend key token ttl).WholeOrNothing now memory
      (client.run now (.extend key token ttl) memory) := by
  rw [Client.run_extend]
  cases checked : Lock.check key ttl with
  | error failure => exact .failed ((Lock.guards_check _ _).unbroken failure checked)
  | ok _ =>
      dsimp only
      cases poisoned : memory.poisoned with
      | true =>
          rw [Memory.perform_poisoned poisoned onClock]
          exact .failed rfl
      | false =>
          rw [Memory.perform_extend poisoned onClock]
          split
          · rename_i other
            refine .nothing ?_ (Memory.prompt_purge now key memory)
            rw [stores, other, Option.map_none]
          · rename_i entry held
            refine .made ?_
            rw [stores, held, Option.map_some]

/-- A write whose deadline is on the clock is answered, and made as a whole or not at all. -/
theorem wholeOrNothing (write : TimedWrite) (client : Client) (now : Nat) (memory : Memory)
    (onClock : Memory.OnClock now (some write.ttl)) :
    write.WholeOrNothing now memory (client.run now write.operation memory) := by
  cases write with
  | put schema location doc ttl => exact outcome_put onClock
  | putFields schema location doc ttl => exact outcome_putFields onClock
  | acquire key token ttl => exact outcome_acquire onClock
  | extend key token ttl => exact outcome_extend onClock

theorem ttl?_operation (write : TimedWrite) : write.operation.ttl? = some write.ttl := by
  cases write <;> rfl

/-- A store that differs under the keys of a write only is alike under other keys. -/
theorem alike_of_leaves {keys others : List String} {ttl : Option Duration} {after : Memory}
    (leaves : Memory.Leaves now keys ttl memory after) (onClock : Memory.OnClock now ttl)
    (apart : ∀ key ∈ others, key ∉ keys) (later : Nat) :
    Memory.Alike later others after memory := by
  refine ⟨leaves.poisoned onClock, fun key mem => ?_⟩
  rw [Memory.live?, Memory.live?, leaves.frame key (apart key mem)]

/-- A write whose deadline is on the clock does no harm. -/
theorem harmless_of_onClock (write : TimedWrite) (client : Client) (now : Nat) (memory : Memory)
    (onClock : now + write.ttl.nanos < Memory.horizon) :
    write.Harmless now memory (client.run now write.operation memory) := by
  have asked : Memory.OnClock now (some write.ttl) := by
    rintro d ⟨⟩
    exact onClock
  have leaves := Operation.leaves_run client now write.operation memory
  rw [ttl?_operation] at leaves
  refine ⟨write.wholeOrNothing client now memory asked, leaves.poisoned asked, leaves.frame, ?_⟩
  intro step noSearch apart
  exact Operation.answer_run step.client noSearch (alike_of_leaves leaves asked apart step.moment)

/-- Taking a lock for a second, where nobody holds it. -/
theorem harmless_of_onClock_example :
    5 + Duration.nanos (.ofSeconds 1) < Memory.horizon ∧
      (acquire "lock" "me" (.ofSeconds 1)).Harmless 5 .empty
        (Client.run ⟨.usual, none, 0, .exact⟩ 5 (.acquire "lock" "me" (.ofSeconds 1)) .empty) := by
  have onClock : 5 + Duration.nanos (.ofSeconds 1) < Memory.horizon := by decide +kernel
  exact ⟨onClock, harmless_of_onClock (.acquire "lock" "me" (.ofSeconds 1)) ⟨.usual, none, 0, .exact⟩ 5
    .empty onClock⟩

/-- Fields with the longest time to live that can be asked for poison the store they are merged in. -/
theorem harm_of_longest_ttl :
    ¬∀ (write : TimedWrite) (client : Client) (now : Nat) (history : History),
      write.ttl.isZero = false →
        write.Harmless now history.after (client.run now write.operation history.after) := by
  intro kept
  let longest : Duration := ⟨secondsLimit * nanosPerSecond - 1, by decide⟩
  let doc : Document := .ofList [("n", .integer 1)]
  let write : TimedWrite := .putFields "s" ⟨["a"], by decide, by decide⟩ doc longest
  have harmless := kept write ⟨.usual, none, 0, .exact⟩ 0 [] (by decide +kernel)
  have poisoned :
      (Client.run ⟨.usual, none, 0, .exact⟩ 0 write.operation .empty).2.poisoned = true := by
    decide +kernel
  cases poisoned.symm.trans harmless.poisoned

/-- The write of a whole document that fails leaves the store as it was, even if it is broken off. -/
theorem put_failed (client : Client) (now : Nat) (schema : String) (location : Location)
    (doc : Document) (ttl : Option Duration) (memory : Memory) {failure : Failure}
    (failed : (client.run now (.put schema location doc ttl) memory).1 = .error failure) :
    (client.run now (.put schema location doc ttl) memory).2 = memory := by
  rw [Client.run_put_eq] at failed ⊢
  cases prepared : Whole.preparePut schema location doc ttl with
  | error failure => rfl
  | ok written =>
      rw [prepared] at failed
      dsimp only at failed ⊢
      cases cancelled : client.isCancelled with
      | true => rfl
      | false =>
          rw [cancelled] at failed
          exact Memory.perform_set_failed failed

end TimedWrite

end Folio
