import Folio.Proofs.Retry.Run
import Folio.Proofs.SortedMap
import Folio.Store.Memory

/-!
# What a call does to a store in memory

A call changes nothing but the entries of its own keys, breaks the store only if
its deadline is not on the clock, and is never answered with a transient failure.
A write whose deadline is on the clock puts one entry, or several one after the
other; a merge puts its fields on top of the hash that is there.
-/

namespace Folio

namespace Call

def keys : Call → List String
  | setMany entries => entries.map (·.1)
  | get key | set key _ _ | hashSet key _ _ | hashGetAll key | hashGetMany key _ | hashGet key _
  | delete key | setIfAbsent key _ _ | expireIfEqual key _ _ | deleteIfEqual key _ => [key]

def ttl? : Call → Option Duration
  | set _ _ ttl | hashSet _ _ ttl => ttl
  | setIfAbsent _ _ ttl | expireIfEqual _ _ ttl => some ttl
  | get _ | setMany _ | hashGetAll _ | hashGetMany _ _ | hashGet _ _ | delete _
  | deleteIfEqual _ _ => none

end Call

namespace Memory

theorem deadline?_of_lt {now : Nat} {ttl : Duration} (onClock : now + ttl.nanos < horizon) :
    deadline? now ttl = some (now + ttl.nanos) := if_pos onClock

/-! ## Entries -/

@[simp] theorem get?_put (key other : String) (entry : Entry) (memory : Memory) :
    (memory.put key entry).entries.get? other =
      if key = other then some entry else memory.entries.get? other :=
  SortedMap.get?_insert memory.entries key other entry

@[simp] theorem get?_drop (key other : String) (memory : Memory) :
    (memory.drop key).entries.get? other =
      if key = other then none else memory.entries.get? other :=
  SortedMap.get?_erase memory.entries key other

@[simp] theorem poisoned_put (key : String) (entry : Entry) (memory : Memory) :
    (memory.put key entry).poisoned = memory.poisoned := rfl

theorem put_put (key : String) (first second : Entry) (memory : Memory) :
    (memory.put key first).put key second = memory.put key second := by
  rw [put, put, put, SortedMap.insert_insert]

/-- What a key holds after several writes: the value that was written last, if one was. -/
theorem get?_foldl_put (writes : List (String × Bytes)) (key : String) (memory : Memory) :
    (writes.foldl (fun memory entry => memory.put entry.1 ⟨.bytes entry.2, none⟩)
        memory).entries.get? key =
      ((writes.filter fun write => write.1 = key).getLast?.map fun write =>
        (⟨.bytes write.2, none⟩ : Entry)).or (memory.entries.get? key) := by
  induction writes generalizing memory with
  | nil => rfl
  | cons write rest ih =>
      rw [List.foldl_cons, ih, get?_put]
      by_cases same : write.1 = key
      · rw [if_pos same, List.filter_cons_of_pos (by simpa using same), List.getLast?_cons]
        cases (rest.filter fun write => write.1 = key).getLast? <;> rfl
      · rw [if_neg same, List.filter_cons_of_neg (by simpa using same)]

theorem get?_foldl_put_of_not_mem {key : String} {writes : List (String × Bytes)}
    (untouched : key ∉ writes.map (·.1)) (memory : Memory) :
    (writes.foldl (fun memory entry => memory.put entry.1 ⟨.bytes entry.2, none⟩)
      memory).entries.get? key = memory.entries.get? key := by
  have none : writes.filter (fun write => write.1 = key) = [] := by
    refine List.filter_eq_nil_iff.2 fun write mem same => untouched ?_
    rw [← of_decide_eq_true same]
    exact List.mem_map_of_mem mem
  rw [get?_foldl_put, none]
  rfl

theorem poisoned_foldl_put (writes : List (String × Bytes)) (memory : Memory) :
    (writes.foldl (fun memory entry => memory.put entry.1 ⟨.bytes entry.2, none⟩)
      memory).poisoned = memory.poisoned := by
  induction writes generalizing memory with
  | nil => rfl
  | cons write rest ih => rw [List.foldl_cons, ih, poisoned_put]

/-! ## Calls -/

/-- Whether the deadline of a time to live, if there is one, is on the clock. -/
def OnClock (now : Nat) (ttl : Option Duration) : Prop := ∀ d ∈ ttl, now + d.nanos < horizon

/--
What may be left of a store where only some keys are asked for, with one time to live: the new
store agrees with the old one except at those keys, is as sound as the old one if the deadline
is on the clock, and is never sound again.
-/
structure Leaves (now : Nat) (keys : List String) (ttl : Option Duration)
    (memory after : Memory) : Prop where
  frame : ∀ key, key ∉ keys → after.entries.get? key = memory.entries.get? key
  poisoned : OnClock now ttl → after.poisoned = memory.poisoned
  stays : memory.poisoned = true → after.poisoned = true

variable {now : Nat} {key : String} {keys : List String} {ttl : Option Duration} {memory : Memory}

theorem Leaves.refl : Leaves now keys ttl memory memory := ⟨fun _ _ => rfl, fun _ => rfl, id⟩

theorem Leaves.put (entry : Entry) : Leaves now [key] ttl memory (memory.put key entry) := by
  refine ⟨fun other untouched => ?_, fun _ => rfl, id⟩
  have ne : key ≠ other := fun same => untouched (by rw [same]; exact List.mem_singleton_self other)
  rw [get?_put, if_neg ne]

theorem Leaves.drop : Leaves now [key] ttl memory (memory.drop key) := by
  refine ⟨fun other untouched => ?_, fun _ => rfl, id⟩
  have ne : key ≠ other := fun same => untouched (by rw [same]; exact List.mem_singleton_self other)
  rw [get?_drop, if_neg ne]

theorem Leaves.purge : Leaves now [key] ttl memory (memory.purge now key) := by
  rw [Memory.purge]
  split
  · exact .drop
  · exact .refl

/-- Only a deadline that is not on the clock may poison the store. -/
theorem Leaves.poison {after : Memory} {ttl : Duration}
    (leaves : Leaves now keys (some ttl) memory after) (off : deadline? now ttl = none) :
    Leaves now keys (some ttl) memory after.poison := by
  refine ⟨leaves.frame, fun onClock => ?_, fun _ => rfl⟩
  rw [deadline?_of_lt (onClock ttl rfl)] at off
  cases off

theorem Leaves.mergeHash (fields : List (String × String)) (hash : SortedMap String)
    (expiresAt : Option Nat) :
    Leaves now [key] ttl memory (mergeHash now key fields ttl hash expiresAt memory).2 := by
  cases ttl with
  | none => exact .put _
  | some ttl =>
      unfold Memory.mergeHash
      dsimp only
      split
      · exact .put _
      · rename_i off
        exact (Leaves.put _).poison off

/-- What a call leaves of a sound store. -/
theorem leaves_performSound (now : Nat) (call : Call) (memory : Memory) :
    Leaves now call.keys call.ttl? memory (performSound now call memory).2 := by
  cases call with
  | get key =>
      rw [performSound]
      split <;> exact .refl
  | set key value ttl =>
      cases ttl with
      | none => exact .put _
      | some ttl =>
          cases deadline : deadline? now ttl with
          | none =>
              simp only [performSound, deadline]
              exact .refl
          | some moment =>
              simp only [performSound, deadline]
              exact .put _
  | setMany writes =>
      exact ⟨fun key untouched => get?_foldl_put_of_not_mem untouched memory,
        fun _ => poisoned_foldl_put writes memory,
        fun poisoned => (poisoned_foldl_put writes memory).trans poisoned⟩
  | hashSet key fields ttl =>
      rw [performSound]
      split
      · exact .mergeHash _ _ _
      · exact .mergeHash _ _ _
      · exact .refl
  | hashGetAll key => exact .refl
  | hashGetMany key fields => exact .refl
  | hashGet key field => exact .refl
  | delete key => exact .drop
  | setIfAbsent key token ttl =>
      rw [performSound]
      split
      · exact .refl
      · split
        · exact .put _
        · rename_i off
          exact Leaves.drop.poison off
  | expireIfEqual key token ttl =>
      rw [performSound]
      split
      · exact .purge
      · split
        · exact .put _
        · rename_i off
          exact Leaves.refl.poison off
  | deleteIfEqual key token =>
      rw [performSound]
      split
      · exact .purge
      · exact .drop

/-- A poisoned store stays as it is. -/
theorem perform_of_poisoned (poisoned : memory.poisoned = true) (now : Nat) (call : Call) :
    (memory.perform now call).2 = memory := by
  unfold perform
  rw [if_pos poisoned]
  split
  · split <;> rfl
  · rfl

theorem perform_of_sound (sound : memory.poisoned = false) (now : Nat) (call : Call) :
    memory.perform now call = performSound now call memory := by
  unfold perform
  rw [sound]
  exact if_neg Bool.false_ne_true

/-- What a call leaves of a store. -/
theorem leaves_perform (now : Nat) (call : Call) (memory : Memory) :
    Leaves now call.keys call.ttl? memory (memory.perform now call).2 := by
  cases poisoned : memory.poisoned with
  | true =>
      rw [perform_of_poisoned poisoned]
      exact .refl
  | false =>
      rw [perform_of_sound poisoned]
      exact leaves_performSound now call memory

/-- Reading the bytes under a key changes nothing. -/
theorem store_perform_get (now : Nat) (key : String) (memory : Memory) :
    (memory.perform now (.get key)).2 = memory := by
  cases poisoned : memory.poisoned with
  | true => exact perform_of_poisoned poisoned now _
  | false =>
      rw [perform_of_sound poisoned, performSound]
      split <;> rfl

/-! ## Writes -/

theorem onClock_none (now : Nat) : OnClock now none := by
  rintro d ⟨⟩

theorem onClock_some_iff {d : Duration} : OnClock now (some d) ↔ deadline? now d ≠ none := by
  unfold deadline?
  constructor
  · intro onClock
    rw [if_pos (onClock d rfl)]
    exact Option.some_ne_none _
  · rintro moment _ ⟨⟩
    exact Decidable.byContradiction fun off => moment (if_neg off)

theorem perform_set (sound : memory.poisoned = false) (key : String) (value : Bytes)
    (onClock : OnClock now ttl) :
    memory.perform now (.set key value ttl) =
      (.ok (), memory.put key ⟨.bytes value, ttl.map (now + ·.nanos)⟩) := by
  rw [perform_of_sound sound]
  cases ttl with
  | none => rfl
  | some ttl =>
      have moment := deadline?_of_lt (onClock ttl rfl)
      simp only [performSound, moment]
      rfl

/-- The hash that fields are merged into and its deadline, unless the key holds bytes. -/
def mergeBase? (now : Nat) (key : String) (memory : Memory) :
    Option (SortedMap String × Option Nat) :=
  match memory.live? now key with
  | none => some (.empty, none)
  | some ⟨.hash hash, expiresAt⟩ => some (hash, expiresAt)
  | some ⟨.bytes _, _⟩ => none

theorem perform_hashSet_eq (sound : memory.poisoned = false) (key : String)
    (fields : List (String × String)) (ttl : Option Duration) :
    memory.perform now (.hashSet key fields ttl) =
      match memory.mergeBase? now key with
      | some (hash, expiresAt) => mergeHash now key fields ttl hash expiresAt memory
      | none => (.error wrongKind, memory) := by
  rw [perform_of_sound sound, performSound, mergeBase?]
  cases memory.live? now key with
  | none => rfl
  | some entry =>
      obtain ⟨stored, _⟩ := entry
      cases stored <;> rfl

theorem mergeHash_eq (key : String) (fields : List (String × String)) (hash : SortedMap String)
    (expiresAt : Option Nat) (onClock : OnClock now ttl) :
    mergeHash now key fields ttl hash expiresAt memory =
      (.ok (), memory.put key
        ⟨.hash (hash.insertMany fields), (ttl.map (now + ·.nanos)).or expiresAt⟩) := by
  cases ttl with
  | none => rfl
  | some ttl =>
      have moment := deadline?_of_lt (onClock ttl rfl)
      simp only [mergeHash, moment]
      rfl

theorem perform_hashSet (sound : memory.poisoned = false) {hash : SortedMap String}
    {expiresAt : Option Nat} (base : memory.mergeBase? now key = some (hash, expiresAt))
    (fields : List (String × String)) (onClock : OnClock now ttl) :
    memory.perform now (.hashSet key fields ttl) =
      (.ok (), memory.put key
        ⟨.hash (hash.insertMany fields), (ttl.map (now + ·.nanos)).or expiresAt⟩) := by
  rw [perform_hashSet_eq sound, base]
  exact mergeHash_eq key fields hash expiresAt onClock

/-! ## Failures -/

theorem final_readHash {α : Type} (now : Nat) (key : String) (look : SortedMap String → α)
    (memory : Memory) : Final (memory.readHash now key look) := by
  unfold readHash
  split
  · exact .ok _
  · exact .ok _
  · exact .error rfl

theorem final_mergeHash (now : Nat) (key : String) (fields : List (String × String))
    (ttl : Option Duration) (hash : SortedMap String) (expiresAt : Option Nat) (memory : Memory) :
    Final (mergeHash now key fields ttl hash expiresAt memory).1 := by
  unfold mergeHash
  dsimp only
  split
  · exact .ok _
  · split
    · exact .ok _
    · exact .error rfl

theorem final_performSound (now : Nat) (call : Call) (memory : Memory) :
    Final (performSound now call memory).1 := by
  cases call with
  | get key =>
      rw [performSound]
      split
      · exact .ok _
      · exact .ok _
      · exact .error rfl
  | set key value ttl =>
      cases ttl with
      | none => exact .ok _
      | some ttl =>
          cases deadline : deadline? now ttl with
          | none =>
              simp only [performSound, deadline]
              exact .error rfl
          | some moment =>
              simp only [performSound, deadline]
              exact .ok _
  | setMany writes => exact .ok _
  | hashSet key fields ttl =>
      rw [performSound]
      split
      · exact final_mergeHash _ _ _ _ _ _ _
      · exact final_mergeHash _ _ _ _ _ _ _
      · exact .error rfl
  | hashGetAll key => exact final_readHash now key (·.entries) memory
  | hashGetMany key fields => exact final_readHash now key (fun hash => fields.map hash.get?) memory
  | hashGet key field => exact final_readHash now key (·.get? field) memory
  | delete key => exact .ok _
  | setIfAbsent key token ttl =>
      rw [performSound]
      split
      · exact .ok _
      · split
        · exact .ok _
        · exact .error rfl
  | expireIfEqual key token ttl =>
      rw [performSound]
      split
      · exact .ok _
      · split
        · exact .ok _
        · exact .error rfl
  | deleteIfEqual key token =>
      rw [performSound]
      split
      · exact .ok _
      · exact .ok _

/-- No failure of a store in memory is worth another attempt. -/
theorem final_perform (now : Nat) (call : Call) (memory : Memory) :
    Final (memory.perform now call).1 := by
  cases poisoned : memory.poisoned with
  | true =>
      unfold perform
      rw [if_pos poisoned]
      split
      · split
        · exact .error rfl
        · exact .error rfl
      · exact .error rfl
  | false =>
      rw [perform_of_sound poisoned]
      exact final_performSound now call memory

/-! ## Calls with a deadline on the clock -/

/-- A poisoned store refuses a call whose deadline is on the clock. -/
theorem perform_poisoned (poisoned : memory.poisoned = true) {call : Call}
    (onClock : OnClock now call.ttl?) :
    memory.perform now call = (.error lockPoisoned, memory) := by
  unfold perform
  rw [if_pos poisoned]
  split
  · rename_i ttl
    have moment : deadline? now ttl ≠ none := onClock_some_iff.1 onClock
    simp only [Option.isNone_iff_eq_none, moment, if_false]
  · rfl

/-- A plain write has its deadline before it touches the store. -/
theorem perform_set_failed {value : Bytes} {failure : Failure}
    (failed : (memory.perform now (.set key value ttl)).1 = .error failure) :
    (memory.perform now (.set key value ttl)).2 = memory := by
  cases poisoned : memory.poisoned with
  | true => exact perform_of_poisoned poisoned now _
  | false =>
      rw [perform_of_sound poisoned] at failed ⊢
      cases ttl with
      | none => cases failed
      | some ttl =>
          cases moment : deadline? now ttl with
          | none => simp only [performSound, moment]
          | some deadline =>
              simp only [performSound, moment] at failed
              cases failed

/-- The store takes a lock that nobody holds. -/
theorem perform_acquire {ttl : Duration} (sound : memory.poisoned = false)
    (onClock : OnClock now (some ttl)) (token : String) :
    memory.perform now (.setIfAbsent key token ttl) =
      if (memory.live? now key).isSome then (.ok false, memory)
      else (.ok true, memory.put key ⟨.bytes (Text.utf8 token), some (now + ttl.nanos)⟩) := by
  have moment := deadline?_of_lt (onClock ttl rfl)
  simp only [perform_of_sound sound, performSound, moment]

/-- The store moves the deadline of a lock that the token holds. -/
theorem perform_extend {ttl : Duration} (sound : memory.poisoned = false)
    (onClock : OnClock now (some ttl)) (token : String) :
    memory.perform now (.expireIfEqual key token ttl) =
      match (memory.live? now key).filter (Entry.holds token) with
      | none => (.ok false, memory.purge now key)
      | some entry => (.ok true, memory.put key ⟨entry.stored, some (now + ttl.nanos)⟩) := by
  have moment := deadline?_of_lt (onClock ttl rfl)
  rw [perform_of_sound sound, performSound]
  cases (memory.live? now key).filter (Entry.holds token) with
  | none => rfl
  | some entry => simp only [moment]

/-- A call that fails leaves the store as it was, if its deadline is on the clock. -/
theorem perform_failed {call : Call} {failure : Failure} (onClock : OnClock now call.ttl?)
    (failed : (memory.perform now call).1 = .error failure) :
    (memory.perform now call).2 = memory := by
  cases poisoned : memory.poisoned with
  | true => exact perform_of_poisoned poisoned now call
  | false =>
      cases call with
      | set key value ttl => exact perform_set_failed failed
      | hashSet key fields ttl =>
          have asked : OnClock now ttl := onClock
          cases base : memory.mergeBase? now key with
          | none => rw [perform_hashSet_eq poisoned, base]
          | some found =>
              rw [perform_hashSet poisoned base fields asked] at failed
              cases failed
      | setIfAbsent key token ttl =>
          rw [perform_acquire poisoned onClock] at failed
          split at failed <;> cases failed
      | expireIfEqual key token ttl =>
          rw [perform_extend poisoned onClock] at failed
          split at failed <;> cases failed
      | deleteIfEqual key token =>
          rw [perform_of_sound poisoned, performSound] at failed
          split at failed <;> cases failed
      | get key => exact store_perform_get now key memory
      | setMany | delete =>
          rw [perform_of_sound poisoned] at failed
          cases failed
      | hashGetAll | hashGetMany | hashGet =>
          rw [perform_of_sound poisoned]
          rfl

end Memory

end Folio
