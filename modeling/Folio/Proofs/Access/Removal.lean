import Folio.Proofs.Access.Replay

/-!
# Retried removals

Over a lossy connection a removal may reach the store several times, and only the
answer to the last attempt is heard.  The document is gone all the same.  But an
attempt that finds the key empty, because an earlier one whose reply was lost has
emptied it, tells that there was no document.
-/

namespace Folio

namespace Memory

variable {memory : Memory} {key : String} {now : Nat}

theorem drop_drop (key : String) (memory : Memory) : (memory.drop key).drop key = memory.drop key := by
  have same : (memory.entries.erase key).erase key = memory.entries.erase key := by
    refine SortedMap.ext_get? fun other => ?_
    rw [SortedMap.get?_erase, SortedMap.get?_erase]
    split <;> rfl
  rw [drop, drop, same]

theorem live?_drop (now : Nat) (key : String) (memory : Memory) :
    (memory.drop key).live? now key = none := by
  rw [live?, get?_drop, if_pos rfl]
  rfl

/-- A poisoned store does not answer. -/
theorem perform_ne_ok (poisoned : memory.poisoned = true) (now : Nat) (call : Call)
    (answer : call.Answer) : (memory.perform now call).1 ≠ .ok answer := by
  unfold perform
  rw [if_pos poisoned]
  split
  · split <;> nofun
  · nofun

/-- A sound store drops the key and tells whether there was an entry that counts. -/
theorem perform_drop (sound : memory.poisoned = false) (now : Nat) (key : String) :
    memory.perform now (.delete key) = (.ok (memory.live? now key).isSome, memory.drop key) := by
  rw [perform_of_sound sound, performSound]

/-- Whether nothing comes to its end under a key between some moments. -/
def Quiet (memory : Memory) (key : String) (moments : List Nat) : Prop :=
  ∀ entry ∈ memory.entries.get? key, ∀ a ∈ moments, ∀ b ∈ moments, entry.isLive a = entry.isLive b

theorem Quiet.live?_eq {moments : List Nat} (quiet : memory.Quiet key moments) {a b : Nat}
    (first : a ∈ moments) (second : b ∈ moments) : memory.live? a key = memory.live? b key := by
  rw [live?, live?]
  cases held : memory.entries.get? key with
  | none => rfl
  | some entry => rw [Option.filter_some, Option.filter_some, quiet entry held a first b second]

end Memory

/-! ## One attempt -/

namespace Lossy

theorem unheard_ne_ok {α : Type} (reason : String) (result : Except Failure α) (answer : α) :
    unheard reason result ≠ .ok answer := by
  cases result <;> nofun

/-- An attempt whose answer is heard is one more moment at which the store was reached. -/
theorem of_perform_ok {course : Nat → Delivery} {call : Call} {state : Lossy} {answer : call.Answer}
    (heard : (perform course call state).1 = .ok answer) :
    ∃ now, (state.memory.perform now call).1 = .ok answer ∧
      (perform course call state).2.reached = now :: state.reached ∧
      (perform course call state).2.memory = (state.memory.perform now call).2 := by
  unfold perform at heard ⊢
  generalize course state.attempts.length = delivery at heard ⊢
  obtain ⟨now, fate⟩ := delivery
  cases fate with
  | answered => exact ⟨now, heard, rfl, rfl⟩
  | replyLost reason => exact absurd heard (unheard_ne_ok reason _ answer)
  | requestLost reason => cases heard

/-- What removals that reached the store have left of it: all but the key, once there was one. -/
inductive Removing (memory : Memory) (key : String) (state : Lossy) : Prop where
  | before (reached : state.reached = []) (same : state.memory = memory)
  | behind (reached : state.reached ≠ []) (dropped : state.memory = memory.drop key)

/-- One more attempt of a removal that fails leaves the store as before, or without the key. -/
theorem Removing.perform {memory : Memory} {key : String} {state : Lossy}
    (sound : memory.poisoned = false) (removing : Removing memory key state)
    (course : Nat → Delivery) : Removing memory key (perform course (.delete key) state).2 := by
  obtain ⟨reached, kept⟩ | ⟨now, reached, written, -⟩ := perform_cases course (.delete key) state
  · cases removing with
    | before none same => exact .before (reached.trans none) (kept.trans same)
    | behind some dropped => exact .behind (by rwa [reached]) (kept.trans dropped)
  · refine .behind (by rw [reached]; exact List.cons_ne_nil now _) ?_
    rw [written]
    cases removing with
    | before _ same => rw [same, Memory.perform_drop sound]
    | behind _ dropped =>
        have soundToo : (memory.drop key).poisoned = false := sound
        rw [dropped, Memory.perform_drop soundToo, Memory.drop_drop]

/-! ## A run -/

/--
A removal that is heard of leaves the store without the key, and tells whether there was an entry
that counts unless it had reached the store before.
-/
theorem answer_of_retried (course : Nat → Delivery) (retry : RetryPolicy) (cancelAt : Option Nat)
    (wait : Wait) (clock : Nat) (memory : Memory) (key : String) {answer : Bool}
    (heard : (Access.retried ⟨store course, retry, cancelAt, wait⟩ (.delete key)
      ⟨clock, start memory⟩).1 = .ok answer) :
    let after := (Access.retried ⟨store course, retry, cancelAt, wait⟩ (.delete key)
      ⟨clock, start memory⟩).2.store
    ∃ now earlier, after.reached = now :: earlier ∧ after.memory = memory.drop key ∧
      answer = ((memory.live? now key).isSome && earlier.isEmpty) := by
  intro after
  -- An attempt of the run is a call over the connection.
  have last : ∀ Holds : Lossy → Prop, Holds (start memory) →
      (∀ state, Holds state → Holds (perform course (.delete key) state).2) →
      ∃ state, Holds state ∧ (perform course (.delete key) state).1 = .ok answer ∧
        after = (perform course (.delete key) state).2 :=
    fun Holds first preserved =>
      retry.exists_last_of_runFrom wait cancelAt (fun state _ holds _ => preserved state holds) _ _
        clock first heard
  cases poisoned : memory.poisoned with
  | true =>
      obtain ⟨state, stays, ok, -⟩ := last (fun state => state.memory.poisoned = true) poisoned
        fun state stays => by
          obtain ⟨-, kept⟩ | ⟨now, -, written, -⟩ := perform_cases course (.delete key) state
          · rwa [kept]
          · rwa [written, Memory.perform_of_poisoned stays]
      obtain ⟨now, answered, -⟩ := of_perform_ok ok
      exact absurd answered (Memory.perform_ne_ok stays now _ _)
  | false =>
      obtain ⟨state, removing, ok, behind⟩ := last (Removing memory key) (.before rfl rfl)
        fun state removing => removing.perform poisoned course
      obtain ⟨now, answered, reached, written⟩ := of_perform_ok ok
      rw [behind, reached, written]
      refine ⟨now, state.reached, rfl, ?_⟩
      cases removing with
      | before none same =>
          rw [same, Memory.perform_drop poisoned] at answered ⊢
          cases answered
          rw [none]
          exact ⟨rfl, (Bool.and_true _).symm⟩
      | behind some dropped =>
          have soundToo : (memory.drop key).poisoned = false := poisoned
          rw [dropped, Memory.perform_drop soundToo, Memory.live?_drop] at answered
          rw [dropped, Memory.perform_drop soundToo, Memory.drop_drop]
          cases answered
          have reachedBefore : state.reached.isEmpty = false := by
            rw [Bool.eq_false_iff, ne_eq, List.isEmpty_iff]
            exact some
          rw [reachedBefore, Bool.and_false]
          exact ⟨rfl, rfl⟩

end Lossy

/-! ## Removals of documents -/

inductive Removal where
  | whole (schema : String) (location : Location)
  | byField (schema : String) (location : Location)

namespace Removal

def act {σ : Type} (access : Access σ) : Removal → Action σ Bool
  | whole schema location => Whole.delete access schema location
  | byField schema location => ByField.delete access schema location

def key : Removal → Except Failure String
  | whole schema location | byField schema location => documentKey schema location

/-- What a client comes to with a removal over a lossy connection, and the store behind it. -/
def retried (removal : Removal) (client : Client) (course : Nat → Delivery) (memory : Memory) :
    Except Failure Bool × Lossy :=
  let (result, world) := removal.act ⟨Lossy.store course, client.retry, client.cancelAt, client.wait⟩
    ⟨client.clock, Lossy.start memory⟩
  (result, world.store)

/-- Whatever it removes, a removal is the deletion of a key. -/
theorem act_eq {σ : Type} (removal : Removal) (access : Access σ) :
    removal.act access = .checked removal.key fun key => access.retried (.delete key) := by
  cases removal <;> rfl

/-- A removal that is heard of has a key and is its retried deletion. -/
theorem of_retried_ok {removal : Removal} {client : Client} {course : Nat → Delivery}
    {memory : Memory} {answer : Bool}
    (heard : (removal.retried client course memory).1 = .ok answer) :
    ∃ key, removal.key = .ok key ∧
      removal.retried client course memory =
        let (result, world) := Access.retried
          ⟨Lossy.store course, client.retry, client.cancelAt, client.wait⟩ (.delete key)
          ⟨client.clock, Lossy.start memory⟩
        (result, world.store) := by
  unfold retried at heard ⊢
  rw [act_eq] at heard ⊢
  cases keyed : removal.key with
  | error failure =>
      rw [keyed] at heard
      cases heard
  | ok key => exact ⟨key, rfl, rfl⟩

/--
A removal that is heard of has removed its document, however its attempts went.  It tells that there
was one iff there was and only one attempt reached the store: an attempt after one whose reply was
lost finds nothing and tells so.
-/
theorem answer_iff_reached_once (removal : Removal) (client : Client) (course : Nat → Delivery)
    (memory : Memory) (called : Nat) (answer : Bool)
    (heard : (removal.retried client course memory).1 = .ok answer)
    (quiet : ∀ key, removal.key = .ok key →
      memory.Quiet key (called :: (removal.retried client course memory).2.reached)) :
    ∃ key, removal.key = .ok key ∧
      (removal.retried client course memory).2.memory = memory.drop key ∧
      (∀ later, (removal.retried client course memory).2.memory.live? later key = none) ∧
      (answer = true ↔ (memory.live? called key).isSome = true ∧
        (removal.retried client course memory).2.reached.length = 1) := by
  obtain ⟨key, keyed, run⟩ := of_retried_ok heard
  have quiet := quiet key keyed
  rw [run] at heard quiet ⊢
  obtain ⟨now, earlier, reached, dropped, told⟩ :=
    Lossy.answer_of_retried course client.retry client.cancelAt client.wait client.clock memory key
      heard
  dsimp only at quiet ⊢
  rw [reached] at quiet ⊢
  rw [dropped]
  refine ⟨key, keyed, rfl, fun later => Memory.live?_drop later key memory, ?_⟩
  rw [told, quiet.live?_eq (a := now) (b := called) (by simp) (by simp), Bool.and_eq_true,
    List.isEmpty_iff, List.length_cons, Nat.add_eq_right, List.length_eq_zero_iff]

/-- Of two attempts the first is lost on its way, so the second one is the only one to count. -/
theorem answer_iff_reached_once_example :
    let client : Client := ⟨.usual, none, 0, .exact⟩
    let removal : Removal := .byField "notes" ⟨["a"], by decide, by decide⟩
    let course : Nat → Delivery := fun n =>
      if n = 0 then ⟨3, .requestLost "refused"⟩ else ⟨4, .answered⟩
    let memory := Memory.empty.put "notes:a" ⟨.hash (.ofList [("m", "1")]), some 8⟩
    (removal.retried client course memory).1 = .ok true ∧
      (removal.retried client course memory).2.reached = [4] ∧
      ∃ key, removal.key = .ok key ∧
        (removal.retried client course memory).2.memory = memory.drop key ∧
        (∀ later, (removal.retried client course memory).2.memory.live? later key = none) ∧
        (true = true ↔ (memory.live? 2 key).isSome = true ∧
          (removal.retried client course memory).2.reached.length = 1) := by
  intro client removal course memory
  have heard : (removal.retried client course memory).1 = .ok true := by decide +kernel
  have reached : (removal.retried client course memory).2.reached = [4] := by decide +kernel
  refine ⟨heard, reached, answer_iff_reached_once removal client course memory 2 true heard ?_⟩
  rw [reached]
  intro key _ entry held
  rw [Memory.get?_put] at held
  split at held
  · cases held
    decide
  · cases held

/-- If the reply to a removal is lost, the next attempt tells that there was no document. -/
theorem answer_lost_with_reply :
    ¬ ∀ (removal : Removal) (client : Client) (course : Nat → Delivery) (memory : Memory)
      (called : Nat) (answer : Bool) (key : String), removal.key = .ok key →
      (removal.retried client course memory).1 = .ok answer →
      memory.Quiet key (called :: (removal.retried client course memory).2.reached) →
      (answer = true ↔ (memory.live? called key).isSome = true) := by
  intro kept
  let removal : Removal := .whole "notes" ⟨["a"], by decide, by decide⟩
  let client : Client := ⟨.usual, none, 0, .exact⟩
  let course : Nat → Delivery := fun n =>
    if n = 0 then ⟨3, .replyLost "timed out"⟩ else ⟨4, .answered⟩
  let memory := Memory.empty.put "notes:a" ⟨.bytes (Text.utf8 "\x7b\x7d"), none⟩
  have keyed : removal.key = .ok "notes:a" := by decide +kernel
  have heard : (removal.retried client course memory).1 = .ok false := by decide +kernel
  have quiet : memory.Quiet "notes:a" (2 :: (removal.retried client course memory).2.reached) := by
    intro entry held a _ b _
    rw [Memory.get?_put, if_pos rfl] at held
    cases held
    rfl
  have existed : (memory.live? 2 "notes:a").isSome = true := by decide +kernel
  have told := (kept removal client course memory 2 false "notes:a" keyed heard quiet).2 existed
  cases told

end Removal

end Folio
