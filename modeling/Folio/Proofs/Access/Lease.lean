import Folio.Proofs.Access.History
import Folio.Proofs.Location
import Folio.Proofs.Text.Utf8

/-!
# Locks are leases

What clients are told about a lock makes up a lease: taking the lock begins it,
holding it for longer moves its end, and giving it back ends it.  As long as the
store is sound, the entry under the key of the lock is exactly the lease that
runs, whoever else uses the store, so the answers about a lock are those of its
lease.  The keys of documents have a colon, and the key of the lock must not.
-/

namespace Folio

/-- Who holds a lock, and until when. -/
structure Lease where
  token : String
  deadline : Nat
  deriving DecidableEq

namespace Lease

def entry (lease : Lease) : Entry := ⟨.bytes (Text.utf8 lease.token), some lease.deadline⟩

/-- Of a lease that was begun, what is left of it at a moment. -/
def running (now : Nat) (lease : Option Lease) : Option Lease :=
  lease.filter fun lease => now < lease.deadline

def isOf (token : String) (lease : Option Lease) : Bool := lease.any fun lease => lease.token == token

end Lease

def isTrue : Except Failure Bool → Bool
  | .ok done => done
  | .error _ => false

/-- The lease on a key behind a step, from the lease before it and the answer to the step. -/
def Step.lease (key : String) (step : Step) (memory : Memory) (lease : Option Lease) :
    Option Lease :=
  match step with
  | ⟨now, client, .acquire lock token ttl⟩ =>
      if lock ≠ key then lease
      else if isTrue (client.run now (.acquire lock token ttl) memory).1 then
        some ⟨token, now + ttl.nanos⟩
      else lease
  | ⟨now, client, .extend lock token ttl⟩ =>
      if lock ≠ key then lease
      else if isTrue (client.run now (.extend lock token ttl) memory).1 then
        lease.map fun lease => { lease with deadline := now + ttl.nanos }
      else lease
  | ⟨now, client, .release lock token⟩ =>
      if lock ≠ key then lease
      else if isTrue (client.run now (.release lock token) memory).1 then none
      else lease
  | _ => lease

/-- The lease on a key that the answers in a history make up. -/
def History.lease (key : String) : History → Option Lease
  | [] => none
  | step :: earlier => step.lease key (History.after earlier) (lease key earlier)

/-! ## The entry of a lease -/

namespace Lease

theorem utf8_injective {a b : String} (same : Text.utf8 a = Text.utf8 b) : a = b := by
  rw [← Text.encode_toList, ← Text.encode_toList] at same
  exact String.toList_inj.1 (Text.encode_injective same)

@[simp] theorem holds_entry (lease : Lease) (token : String) :
    lease.entry.holds token = (lease.token == token) := by
  rw [Bool.eq_iff_iff, beq_iff_eq]
  constructor
  · intro same
    exact utf8_injective (eq_of_beq same)
  · rintro rfl
    exact beq_self_eq_true _

@[simp] theorem isLive_entry (lease : Lease) (now : Nat) :
    lease.entry.isLive now = decide (now < lease.deadline) := rfl

/-- Of the entry of a lease, what holds a token is there iff the lease is one of the token. -/
theorem filter_holds_entry (lease : Option Lease) (token : String) :
    (lease.map entry).filter (Entry.holds token) =
      if isOf token lease then lease.map entry else none := by
  cases lease with
  | none => rfl
  | some lease => rw [Option.map_some, Option.filter_some, holds_entry, isOf, Option.any_some]

/-- A lease is one of a token iff it was given to that token. -/
theorem isOf_iff {lease : Option Lease} {token : String} :
    isOf token lease = true ↔ ∃ deadline, lease = some ⟨token, deadline⟩ := by
  cases lease with
  | none => simp [isOf]
  | some held =>
      obtain ⟨holder, deadline⟩ := held
      rw [isOf, Option.any_some, beq_iff_eq]
      constructor
      · rintro rfl
        exact ⟨deadline, rfl⟩
      · rintro ⟨_, ⟨⟩⟩
        rfl

end Lease

namespace Memory

/-- Whether the entry under a key is a lease, from a moment on. -/
def Leased (memory : Memory) (key : String) (now : Nat) (lease : Option Lease) : Prop :=
  ∀ later, now ≤ later → memory.live? later key = (Lease.running later lease).map Lease.entry

variable {memory : Memory} {key : String} {now : Nat} {lease : Option Lease}

theorem Leased.later (leased : memory.Leased key now lease) {later : Nat} (order : now ≤ later) :
    memory.Leased key later lease :=
  fun last behind => leased last (Nat.le_trans order behind)

theorem Leased.frame (leased : memory.Leased key now lease) {after : Memory}
    (same : after.entries.get? key = memory.entries.get? key) : after.Leased key now lease := by
  intro later order
  rw [live?, same]
  exact leased later order

theorem leased_put (memory : Memory) (key : String) (now : Nat) (lease : Lease) :
    (memory.put key lease.entry).Leased key now (some lease) := by
  intro later _
  rw [live?, get?_put, if_pos rfl, Lease.running, Option.filter_some, Option.filter_some,
    Lease.isLive_entry]
  split <;> rfl

theorem leased_drop (memory : Memory) (key : String) (now : Nat) :
    (memory.drop key).Leased key now none := by
  intro later _
  rw [live?, get?_drop, if_pos rfl]
  rfl

/-- Dropping an entry whose deadline has come changes nothing from then on. -/
theorem Leased.purge (leased : memory.Leased key now lease) :
    (memory.purge now key).Leased key now lease := by
  have here := leased now (Nat.le_refl now)
  rw [Memory.purge]
  cases entry : memory.live? now key with
  | some entry => exact leased
  | none =>
      intro later order
      have past : Lease.running now lease = none := by
        rw [entry] at here
        exact Option.map_eq_none_iff.1 here.symm
      have still : Lease.running later lease = none := by
        rw [Lease.running, Option.filter_eq_none_iff] at past ⊢
        intro begun mem runs
        have ended := past begun mem
        simp only [decide_eq_true_eq] at ended runs
        omega
      rw [still]
      exact leased_drop memory key now later order

/-! ## Lock calls -/

/-- A lock is taken iff no lease runs. -/
theorem perform_setIfAbsent (sound : memory.poisoned = false) (leased : memory.Leased key now lease)
    (token : String) (ttl : Duration) :
    memory.perform now (.setIfAbsent key token ttl) =
      if (Lease.running now lease).isSome then (.ok false, memory)
      else
        match deadline? now ttl with
        | some deadline => (.ok true, memory.put key (Lease.entry ⟨token, deadline⟩))
        | none => (.error .deadlineOverflow, (memory.drop key).poison) := by
  rw [perform_of_sound sound, performSound, leased now (Nat.le_refl now), Option.isSome_map]
  rfl

/-- A lock is held for longer iff the lease that runs is one of the token. -/
theorem perform_expireIfEqual (sound : memory.poisoned = false)
    (leased : memory.Leased key now lease) (token : String) (ttl : Duration) :
    memory.perform now (.expireIfEqual key token ttl) =
      if Lease.isOf token (Lease.running now lease) then
        match deadline? now ttl with
        | some deadline => (.ok true, memory.put key (Lease.entry ⟨token, deadline⟩))
        | none => (.error .deadlineOverflow, memory.poison)
      else (.ok false, memory.purge now key) := by
  rw [perform_of_sound sound, performSound, leased now (Nat.le_refl now), Lease.filter_holds_entry]
  cases holder : Lease.isOf token (Lease.running now lease) with
  | false => rfl
  | true =>
      obtain ⟨deadline, running⟩ := Lease.isOf_iff.1 holder
      rw [running]
      rfl

/-- A lock is given back iff the lease that runs is one of the token. -/
theorem perform_deleteIfEqual (sound : memory.poisoned = false)
    (leased : memory.Leased key now lease) (token : String) :
    memory.perform now (.deleteIfEqual key token) =
      if Lease.isOf token (Lease.running now lease) then (.ok true, memory.drop key)
      else (.ok false, memory.purge now key) := by
  rw [perform_of_sound sound, performSound, leased now (Nat.le_refl now), Lease.filter_holds_entry]
  cases holder : Lease.isOf token (Lease.running now lease) with
  | false => rfl
  | true =>
      obtain ⟨deadline, running⟩ := Lease.isOf_iff.1 holder
      rw [running]
      rfl

end Memory

namespace Client

/-! ## Lock operations -/

theorem run_acquire (client : Client) (now : Nat) (key token : String) (ttl : Duration)
    (memory : Memory) :
    client.run now (.acquire key token ttl) memory =
      match Lock.check key ttl with
      | .ok _ => memory.perform now (.setIfAbsent key token ttl)
      | .error failure => (.error failure, memory) := by
  unfold run
  dsimp only [Operation.act, Lock.acquire, Action.checked]
  cases Lock.check key ttl <;> rfl

theorem run_extend (client : Client) (now : Nat) (key token : String) (ttl : Duration)
    (memory : Memory) :
    client.run now (.extend key token ttl) memory =
      match Lock.check key ttl with
      | .ok _ => memory.perform now (.expireIfEqual key token ttl)
      | .error failure => (.error failure, memory) := by
  unfold run
  dsimp only [Operation.act, Lock.extend, Action.checked]
  cases Lock.check key ttl <;> rfl

theorem run_release (client : Client) (now : Nat) (key token : String) (memory : Memory) :
    client.run now (.release key token) memory =
      match Lock.checkKey key with
      | .ok _ => memory.perform now (.deleteIfEqual key token)
      | .error failure => (.error failure, memory) := by
  unfold run
  dsimp only [Operation.act, Lock.release, Action.checked]
  cases Lock.checkKey key <;> rfl

end Client

/-! ## One step -/

open Memory (deadline? horizon)

theorem eq_add_of_deadline? {now deadline : Nat} {ttl : Duration}
    (onClock : deadline? now ttl = some deadline) : deadline = now + ttl.nanos := by
  unfold deadline? at onClock
  split at onClock
  · exact (Option.some.inj onClock).symm
  · cases onClock

/-- Whether a store shows the same entry under a key as another one, from a moment on. -/
def SameFrom (key : String) (now : Nat) (memory after : Memory) : Prop :=
  ∀ later, now ≤ later → after.live? later key = memory.live? later key

/-- What a lock operation may come to, given the lease on the lock if it is granted. -/
inductive LockOutcome (key : String) (now : Nat) (memory : Memory) (granted : Option Lease) :
    Except Failure Bool × Memory → Prop
  /-- The arguments are not accepted. -/
  | rejected (failure : Failure) : LockOutcome key now memory granted (.error failure, memory)
  /-- The deadline is not on the clock. -/
  | broken (failure : Failure) (after : Memory) :
      LockOutcome key now memory granted (.error failure, after.poison)
  | refused {after : Memory} (same : SameFrom key now memory after) :
      LockOutcome key now memory granted (.ok false, after)
  | granted {after : Memory} (leased : after.Leased key now granted) :
      LockOutcome key now memory granted (.ok true, after)

section Outcome

variable {memory : Memory} {key : String} {now : Nat} {lease : Option Lease}

theorem sameFrom_purge (leased : memory.Leased key now lease) :
    SameFrom key now memory (memory.purge now key) := by
  intro later order
  rw [leased.purge later order, leased later order]

theorem outcome_acquire (leased : memory.Leased key now lease) (sound : memory.poisoned = false)
    (client : Client) (token : String) (ttl : Duration) :
    LockOutcome key now memory (some ⟨token, now + ttl.nanos⟩)
      (client.run now (.acquire key token ttl) memory) := by
  rw [Client.run_acquire]
  cases Lock.check key ttl with
  | error failure => exact .rejected failure
  | ok _ =>
      dsimp only
      rw [Memory.perform_setIfAbsent sound leased]
      cases (Lease.running now lease).isSome with
      | true => exact .refused fun _ _ => rfl
      | false =>
          rw [if_neg Bool.false_ne_true]
          cases onClock : deadline? now ttl with
          | none => exact .broken _ _
          | some deadline =>
              obtain rfl := eq_add_of_deadline? onClock
              exact .granted (Memory.leased_put memory key now _)

/-- A lease that runs and is one of a token is moved as one of that token. -/
theorem map_deadline_of_isOf {token : String} (holder : Lease.isOf token (Lease.running now lease))
    (deadline : Nat) :
    lease.map (fun lease => { lease with deadline := deadline }) = some ⟨token, deadline⟩ := by
  obtain ⟨ending, running⟩ := Lease.isOf_iff.1 holder
  rw [Option.eq_some_of_filter_eq_some running, Option.map_some]

theorem outcome_extend (leased : memory.Leased key now lease) (sound : memory.poisoned = false)
    (client : Client) (token : String) (ttl : Duration) :
    LockOutcome key now memory (lease.map fun lease => { lease with deadline := now + ttl.nanos })
      (client.run now (.extend key token ttl) memory) := by
  rw [Client.run_extend]
  cases Lock.check key ttl with
  | error failure => exact .rejected failure
  | ok _ =>
      dsimp only
      rw [Memory.perform_expireIfEqual sound leased]
      cases holder : Lease.isOf token (Lease.running now lease) with
      | false => exact .refused (sameFrom_purge leased)
      | true =>
          rw [if_pos rfl, map_deadline_of_isOf holder]
          cases onClock : deadline? now ttl with
          | none => exact .broken _ _
          | some deadline =>
              obtain rfl := eq_add_of_deadline? onClock
              exact .granted (Memory.leased_put memory key now _)

theorem outcome_release (leased : memory.Leased key now lease) (sound : memory.poisoned = false)
    (client : Client) (token : String) :
    LockOutcome key now memory none (client.run now (.release key token) memory) := by
  rw [Client.run_release]
  cases Lock.checkKey key with
  | error failure => exact .rejected failure
  | ok _ =>
      dsimp only
      rw [Memory.perform_deleteIfEqual sound leased]
      cases Lease.isOf token (Lease.running now lease) with
      | false => exact .refused (sameFrom_purge leased)
      | true => exact .granted (Memory.leased_drop memory key now)

/-- A store that is sound behind a lock operation holds the lease that the answer tells of. -/
theorem LockOutcome.leased {granted : Option Lease} {result : Except Failure Bool × Memory}
    (outcome : LockOutcome key now memory granted result) (leased : memory.Leased key now lease)
    (sound : result.2.poisoned = false) :
    result.2.Leased key now (if isTrue result.1 then granted else lease) := by
  cases outcome with
  | rejected failure => exact leased
  | broken failure after => cases sound
  | refused same => exact fun later order => (same later order).trans (leased later order)
  | granted taken => exact taken

end Outcome

/-- Keys of documents have a colon. -/
theorem not_mem_keysAt {key : String} (noColon : ':' ∉ key.toList) (schema : String)
    (location : Location) : key ∉ Operation.keysAt schema location := by
  intro mem
  unfold Operation.keysAt at mem
  split at mem
  · rename_i other ok
    obtain rfl := List.mem_singleton.1 mem
    obtain ⟨schema, -, rfl⟩ := documentKey_eq_ok_iff.1 ok
    exact noColon (schema.delimiter_mem_key location)
  · cases mem

/-- A step that does not ask for the key leaves the lease on it alone. -/
theorem lease_of_not_mem {key : String} {step : Step} (untouched : key ∉ step.operation.keys)
    (memory : Memory) (lease : Option Lease) : step.lease key memory lease = lease := by
  obtain ⟨now, client, operation⟩ := step
  have ne : ∀ lock, key ∉ [lock] → lock ≠ key := by
    rintro lock absent rfl
    exact absent (List.mem_singleton_self lock)
  cases operation with
  | acquire lock token ttl => exact if_pos (ne lock untouched)
  | extend lock token ttl => exact if_pos (ne lock untouched)
  | release lock token => exact if_pos (ne lock untouched)
  | _ => rfl

/-- One step keeps the entry under the key the lease on it, as long as the store is sound. -/
theorem leased_step {key : String} (noColon : ':' ∉ key.toList) {memory : Memory} {now : Nat}
    {lease : Option Lease} (leased : memory.Leased key now lease) (step : Step)
    (order : now ≤ step.moment) (sound : memory.poisoned = false)
    (still : (step.run memory).2.poisoned = false) :
    (step.run memory).2.Leased key step.moment (step.lease key memory lease) := by
  have here := leased.later order
  by_cases asked : key ∈ step.operation.keys
  · obtain ⟨now, client, operation⟩ := step
    cases operation with
    | acquire lock token ttl =>
        obtain rfl := List.mem_singleton.1 asked
        have tells := (outcome_acquire here sound client token ttl).leased here still
        unfold Step.lease
        dsimp only
        rw [if_neg (not_not_intro rfl)]
        exact tells
    | extend lock token ttl =>
        obtain rfl := List.mem_singleton.1 asked
        have tells := (outcome_extend here sound client token ttl).leased here still
        unfold Step.lease
        dsimp only
        rw [if_neg (not_not_intro rfl)]
        exact tells
    | release lock token =>
        obtain rfl := List.mem_singleton.1 asked
        have tells := (outcome_release here sound client token).leased here still
        unfold Step.lease
        dsimp only
        rw [if_neg (not_not_intro rfl)]
        exact tells
    | find schema pattern => cases asked
    | putMany schema docs =>
        obtain ⟨doc, -, mem⟩ := List.mem_flatMap.1 asked
        exact absurd mem (not_mem_keysAt noColon schema doc.1)
    | _ => exact absurd asked (not_mem_keysAt noColon _ _)
  · rw [lease_of_not_mem asked]
    exact here.frame ((step.leaves_run memory).frame key asked)

/-- Behind every history that leaves the store sound, the entry under the key is the lease on it. -/
theorem leased_after {key : String} (noColon : ':' ∉ key.toList) {history : History}
    (ordered : history.Ordered) (sound : (History.after history).poisoned = false) {now : Nat}
    (latest : ∀ step ∈ history, step.moment ≤ now) :
    (History.after history).Leased key now (History.lease key history) := by
  induction history generalizing now with
  | nil => exact fun later _ => rfl
  | cons step earlier ih =>
      obtain ⟨before, orderedBefore⟩ := List.pairwise_cons.1 ordered
      have soundBefore := History.sound_of_cons sound
      have leased := ih orderedBefore soundBefore before
      have kept := leased_step noColon leased step (Nat.le_refl _) soundBefore sound
      exact kept.later (latest step List.mem_cons_self)

/-! ## What clients can rely on -/

theorem Lock.checkKey_ok {key : String} (nonempty : key ≠ "") : Lock.checkKey key = .ok () := by
  rw [Lock.checkKey, if_neg (by rwa [String.isEmpty_iff])]

theorem Lock.check_ok {key : String} (nonempty : key ≠ "") {ttl : Duration}
    (positive : ttl.isZero = false) : Lock.check key ttl = .ok () := by
  rw [Lock.check, Lock.checkKey_ok nonempty, positive]
  rfl

/-- Whether an answer that nothing was done leaves holder and deadline under the key alone. -/
def RefusalKeeps (key : String) (now : Nat) (memory : Memory)
    (result : Except Failure Bool × Memory) : Prop :=
  result.1 = .ok false → ∀ later, now ≤ later → result.2.live? later key = memory.live? later key

theorem LockOutcome.refusalKeeps {key : String} {now : Nat} {memory : Memory}
    {granted : Option Lease} {result : Except Failure Bool × Memory}
    (outcome : LockOutcome key now memory granted result) : RefusalKeeps key now memory result := by
  intro nothing
  cases outcome with
  | rejected failure => cases nothing
  | broken failure after => cases nothing
  | refused same => exact same
  | granted taken => cases nothing

/-- What clients can rely on about the lock under a key at a moment, given the lease on it. -/
structure LockSafe (key : String) (now : Nat) (memory : Memory) (lease : Option Lease) : Prop where
  /-- The store holds the lease that runs, with its token and its deadline, and nothing else. -/
  entry : memory.live? now key = (Lease.running now lease).map Lease.entry
  /-- The lock is taken iff no lease runs, not even one of the same token. -/
  acquire : ∀ (client : Client) (token : String) (ttl : Duration), ttl.isZero = false →
    now + ttl.nanos < horizon →
      (client.run now (.acquire key token ttl) memory).1 = .ok (Lease.running now lease).isNone
  /-- The lock is held for longer iff the lease that runs is one of exactly that token. -/
  extend : ∀ (client : Client) (token : String) (ttl : Duration), ttl.isZero = false →
    now + ttl.nanos < horizon →
      (client.run now (.extend key token ttl) memory).1 =
        .ok (Lease.isOf token (Lease.running now lease))
  /-- The lock is given back iff the lease that runs is one of exactly that token. -/
  release : ∀ (client : Client) (token : String),
    (client.run now (.release key token) memory).1 =
      .ok (Lease.isOf token (Lease.running now lease))
  acquire_refused : ∀ (client : Client) (token : String) (ttl : Duration),
    RefusalKeeps key now memory (client.run now (.acquire key token ttl) memory)
  extend_refused : ∀ (client : Client) (token : String) (ttl : Duration),
    RefusalKeeps key now memory (client.run now (.extend key token ttl) memory)
  release_refused : ∀ (client : Client) (token : String),
    RefusalKeeps key now memory (client.run now (.release key token) memory)
  /-- Two different tokens never hold the lock at one moment. -/
  one_holder : ∀ (client other : Client) (token rival : String),
    (client.run now (.release key token) memory).1 = .ok true →
      (other.run now (.release key rival) memory).1 = .ok true → token = rival
  /-- Whoever is not the holder, be it a former owner, can neither prolong the lease nor end it. -/
  stranger : ∀ holder ∈ Lease.running now lease, ∀ (client : Client) (token : String)
    (ttl : Duration), token ≠ holder.token → ttl.isZero = false → now + ttl.nanos < horizon →
      (client.run now (.extend key token ttl) memory).1 = .ok false ∧
        (client.run now (.release key token) memory).1 = .ok false

section LockSafe

variable {key : String} {now : Nat} {memory : Memory} {lease : Option Lease}

theorem answer_acquire (nonempty : key ≠ "") (sound : memory.poisoned = false)
    (leased : memory.Leased key now lease) (client : Client) (token : String) {ttl : Duration}
    (positive : ttl.isZero = false) (onClock : now + ttl.nanos < horizon) :
    (client.run now (.acquire key token ttl) memory).1 = .ok (Lease.running now lease).isNone := by
  rw [Client.run_acquire, Lock.check_ok nonempty positive]
  dsimp only
  rw [Memory.perform_setIfAbsent sound leased, Memory.deadline?_of_lt onClock]
  cases Lease.running now lease <;> rfl

theorem answer_extend (nonempty : key ≠ "") (sound : memory.poisoned = false)
    (leased : memory.Leased key now lease) (client : Client) (token : String) {ttl : Duration}
    (positive : ttl.isZero = false) (onClock : now + ttl.nanos < horizon) :
    (client.run now (.extend key token ttl) memory).1 =
      .ok (Lease.isOf token (Lease.running now lease)) := by
  rw [Client.run_extend, Lock.check_ok nonempty positive]
  dsimp only
  rw [Memory.perform_expireIfEqual sound leased, Memory.deadline?_of_lt onClock]
  cases Lease.isOf token (Lease.running now lease) <;> rfl

theorem answer_release (nonempty : key ≠ "") (sound : memory.poisoned = false)
    (leased : memory.Leased key now lease) (client : Client) (token : String) :
    (client.run now (.release key token) memory).1 =
      .ok (Lease.isOf token (Lease.running now lease)) := by
  rw [Client.run_release, Lock.checkKey_ok nonempty]
  dsimp only
  rw [Memory.perform_deleteIfEqual sound leased]
  cases Lease.isOf token (Lease.running now lease) <;> rfl

/-- A lease is one of at most one token. -/
theorem token_eq_of_isOf {token rival : String} (holder : Lease.isOf token lease = true)
    (too : Lease.isOf rival lease = true) : token = rival := by
  obtain ⟨ending, held⟩ := Lease.isOf_iff.1 holder
  obtain ⟨other, heldToo⟩ := Lease.isOf_iff.1 too
  rw [held] at heldToo
  cases heldToo
  rfl

theorem isOf_of_ne {holder : Lease} {token : String} (runs : holder ∈ lease)
    (stranger : token ≠ holder.token) : Lease.isOf token lease = false := by
  rw [Option.mem_def] at runs
  rw [Lease.isOf, runs, Option.any_some]
  exact beq_false_of_ne stranger.symm

/-- A sound store that holds the lease on a key keeps the lock under it safe. -/
theorem lockSafe_of_leased (nonempty : key ≠ "") (sound : memory.poisoned = false)
    (leased : memory.Leased key now lease) : LockSafe key now memory lease where
  entry := leased now (Nat.le_refl now)
  acquire client token _ := answer_acquire nonempty sound leased client token
  extend client token _ := answer_extend nonempty sound leased client token
  release := answer_release nonempty sound leased
  acquire_refused client token ttl := (outcome_acquire leased sound client token ttl).refusalKeeps
  extend_refused client token ttl := (outcome_extend leased sound client token ttl).refusalKeeps
  release_refused client token := (outcome_release leased sound client token).refusalKeeps
  one_holder client other token rival done doneToo := by
    rw [answer_release nonempty sound leased, Except.ok.injEq] at done doneToo
    exact token_eq_of_isOf done doneToo
  stranger holder runs client token ttl differs positive onClock := by
    have none := isOf_of_ne runs differs
    rw [answer_extend nonempty sound leased client token positive onClock,
      answer_release nonempty sound leased client token, none]
    exact ⟨rfl, rfl⟩

/-- A poisoned store refuses every lock operation and stays as it is. -/
theorem locks_refused (nonempty : key ≠ "") (poisoned : memory.poisoned = true) (now : Nat)
    (client : Client) (token : String) {ttl : Duration} (positive : ttl.isZero = false) :
    client.run now (.acquire key token ttl) memory = (.error Memory.lockPoisoned, memory) ∧
      client.run now (.extend key token ttl) memory = (.error Memory.lockPoisoned, memory) ∧
        client.run now (.release key token) memory = (.error Memory.lockPoisoned, memory) := by
  rw [Client.run_acquire, Client.run_extend, Client.run_release, Lock.check_ok nonempty positive,
    Lock.checkKey_ok nonempty]
  dsimp only
  unfold Memory.perform
  rw [poisoned]
  exact ⟨rfl, rfl, rfl⟩

end LockSafe

/--
Locks are safe under every history.  Whatever clients did, in whichever order, the store is sound
unless a deadline was asked for that is not on the clock.  While it is sound, taking, holding and
giving back the lock are answered as the lease tells that the answers so far make up; and once it
is not, nobody is given the lock any more.
-/
theorem lock_safety {key : String} (nonempty : key ≠ "") (noColon : ':' ∉ key.toList)
    {history : History} (ordered : history.Ordered) {now : Nat}
    (latest : ∀ step ∈ history, step.moment ≤ now) :
    (history.OnClock → (History.after history).poisoned = false) ∧
    ((History.after history).poisoned = false →
      LockSafe key now (History.after history) (History.lease key history)) ∧
    ((History.after history).poisoned = true → ∀ (client : Client) (token : String) (ttl : Duration),
      ttl.isZero = false →
        (client.run now (.acquire key token ttl) (History.after history)).1 =
            .error Memory.lockPoisoned ∧
          (client.run now (.extend key token ttl) (History.after history)).1 =
              .error Memory.lockPoisoned ∧
            (client.run now (.release key token) (History.after history)).1 =
              .error Memory.lockPoisoned) := by
  refine ⟨History.poisoned_after, fun sound => ?_, fun poisoned client token ttl positive => ?_⟩
  · exact lockSafe_of_leased nonempty sound (leased_after noColon ordered sound latest)
  · have refused := locks_refused nonempty poisoned now client token positive
    rw [refused.1, refused.2.1, refused.2.2]
    exact ⟨rfl, rfl, rfl⟩

/-- A lock that one client has taken is safe while a document is written next to it. -/
theorem lock_safety_taken :
    let client : Client := ⟨.usual, none, 0, .exact⟩
    let history : History :=
      [⟨4, client, .put "notes" ⟨["a"], by decide, by decide⟩ .empty none⟩,
        ⟨1, client, .acquire "build" "alice" ⟨9, by decide⟩⟩]
    History.lease "build" history = some ⟨"alice", 10⟩ ∧
      LockSafe "build" 5 (History.after history) (some ⟨"alice", 10⟩) := by
  intro client history
  have ordered : history.Ordered := by simp [history, History.Ordered]
  have latest : ∀ step ∈ history, step.moment ≤ 5 := by simp [history]
  have nonempty : "build" ≠ "" := by decide
  have noColon : ':' ∉ "build".toList := by decide
  have safe := lock_safety nonempty noColon ordered latest
  have onClock : history.OnClock := by
    simp [history, History.OnClock, Memory.OnClock, Operation.ttl?, Memory.horizon, nanosPerSecond]
  have lease : History.lease "build" history = some ⟨"alice", 10⟩ := by rfl
  have sound := safe.1 onClock
  exact ⟨lease, lease ▸ safe.2.1 sound⟩

end Folio
