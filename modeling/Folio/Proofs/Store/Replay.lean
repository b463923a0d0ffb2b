import Folio.Proofs.Store.Memory

/-!
# Calls that are performed again

A store in memory does not show whether a write was performed once or several times:
what it holds in the end is what the last performance alone would have left.  For a
merge this takes that neither the entry that is merged into nor the time to live of
the merge comes to its end in between.
-/

namespace Folio

namespace Call

inductive Writes : Call → Prop
  | set (key : String) (value : Bytes) (ttl : Option Duration) : Writes (.set key value ttl)
  | setMany (entries : List (String × Bytes)) : Writes (.setMany entries)
  | hashSet (key : String) (fields : List (String × String)) (ttl : Option Duration) :
      Writes (.hashSet key fields ttl)

/--
Whether nothing expires between some moments at which a call is performed: if it is a merge, the
entry under its key is there at all of them or at none, and its time to live outlasts them.
-/
def Steady (memory : Memory) (moments : List Nat) : Call → Prop
  | .hashSet key _ ttl =>
      (∀ entry ∈ memory.entries.get? key, ∀ a ∈ moments, ∀ b ∈ moments,
        entry.isLive a = entry.isLive b) ∧
      ∀ d ∈ ttl, ∀ a ∈ moments, ∀ b ∈ moments, b < a + d.nanos
  | _ => True

theorem Steady.of_subset {memory : Memory} {moments among : List Nat} {call : Call}
    (steady : call.Steady memory among) (subset : moments ⊆ among) :
    call.Steady memory moments := by
  cases call with
  | hashSet key fields ttl =>
      obtain ⟨entry, outlasts⟩ := steady
      exact ⟨fun held mem a here b there => entry held mem a (subset here) b (subset there),
        fun d mem a here b there => outlasts d mem a (subset here) b (subset there)⟩
  | _ => exact trivial

end Call

namespace Memory

variable {memory : Memory} {key : String} {ttl : Option Duration} {now earlier later : Nat}

/-- The entries that a batch of writes puts; none of them expires. -/
def batch (writes : List (String × Bytes)) : List (String × Entry) :=
  writes.map fun write => (write.1, ⟨.bytes write.2, none⟩)

theorem perform_setMany (sound : memory.poisoned = false) (writes : List (String × Bytes)) :
    memory.perform now (.setMany writes) =
      (.ok (), { memory with entries := memory.entries.insertMany (batch writes) }) := by
  have put : ∀ memory : Memory,
      writes.foldl (fun memory entry => memory.put entry.1 ⟨.bytes entry.2, none⟩) memory =
        { memory with entries := memory.entries.insertMany (batch writes) } := by
    induction writes with
    | nil => exact fun memory => rfl
    | cons write rest ih => exact fun memory => ih (memory.put write.1 ⟨.bytes write.2, none⟩)
  rw [perform_of_sound sound, performSound, put]

/-! ## Writes that are not broken off -/

/-- A plain write is broken off iff its deadline is not on the clock. -/
theorem onClock_of_perform_set (sound : memory.poisoned = false) {value : Bytes}
    (survived : (memory.perform now (.set key value ttl)).1 ≠ .error .deadlineOverflow) :
    OnClock now ttl := by
  cases ttl with
  | none => exact onClock_none now
  | some d =>
      refine onClock_some_iff.2 fun off => survived ?_
      simp only [perform_of_sound sound, performSound, off]

/-- So is a merge, unless the key holds bytes. -/
theorem onClock_of_perform_hashSet (sound : memory.poisoned = false) {hash : SortedMap String}
    {expiresAt : Option Nat} (base : memory.mergeBase? now key = some (hash, expiresAt))
    {fields : List (String × String)}
    (survived : (memory.perform now (.hashSet key fields ttl)).1 ≠ .error .deadlineOverflow) :
    OnClock now ttl := by
  cases ttl with
  | none => exact onClock_none now
  | some d =>
      refine onClock_some_iff.2 fun off => survived ?_
      rw [perform_hashSet_eq sound, base]
      simp only [mergeHash, off]

/-! ## What a merge finds -/

theorem live?_eq_of_steady {fields : List (String × String)}
    (steady : (Call.hashSet key fields ttl).Steady memory [earlier, later]) :
    memory.live? later key = memory.live? earlier key := by
  rw [live?, live?]
  cases held : memory.entries.get? key with
  | none => rfl
  | some entry =>
      have same := steady.1 entry held later (by simp) earlier (by simp)
      rw [Option.filter_some, Option.filter_some, same]

/-- The merge before is found by the next one, as long as it has not expired. -/
theorem mergeBase?_put (memory : Memory) (key : String) {hash : SortedMap String}
    {expiresAt : Option Nat} (still : Entry.isLive later ⟨.hash hash, expiresAt⟩ = true) :
    (memory.put key ⟨.hash hash, expiresAt⟩).mergeBase? later key = some (hash, expiresAt) := by
  have live : (memory.put key ⟨.hash hash, expiresAt⟩).live? later key =
      some ⟨.hash hash, expiresAt⟩ := by
    rw [live?, get?_put, if_pos rfl, Option.filter_some, if_pos still]
  rw [mergeBase?, live]

/-- What a merge starts from is still there at a later moment up to which nothing expires. -/
theorem isLive_of_mergeBase? {hash : SortedMap String} (merged : SortedMap String)
    {expiresAt : Option Nat} {fields : List (String × String)}
    (base : memory.mergeBase? earlier key = some (hash, expiresAt))
    (steady : (Call.hashSet key fields ttl).Steady memory [earlier, later]) :
    Entry.isLive later ⟨.hash merged, (ttl.map (earlier + ·.nanos)).or expiresAt⟩ = true := by
  cases ttl with
  | some d => exact decide_eq_true (steady.2 d rfl earlier (by simp) later (by simp))
  | none =>
      have found := live?_eq_of_steady steady
      rw [mergeBase?] at base
      cases entry : memory.live? earlier key with
      | none =>
          rw [entry] at base
          cases base
          rfl
      | some held =>
          rw [entry] at base found
          obtain ⟨stored, deadline⟩ := held
          have live := (Option.filter_eq_some_iff.1 found).2
          cases stored with
          | bytes value => cases base
          | hash _ =>
              cases base
              exact live

/-! ## Performing a call again -/

/-- Performing a write again is performing it at the later moment only. -/
theorem perform_perform {call : Call} (writes : call.Writes)
    (steady : call.Steady memory [earlier, later])
    (first : (memory.perform earlier call).1 ≠ .error .deadlineOverflow)
    (second : ((memory.perform earlier call).2.perform later call).1 ≠ .error .deadlineOverflow) :
    (memory.perform earlier call).2.perform later call = memory.perform later call := by
  cases sound : memory.poisoned with
  | true => rw [perform_of_poisoned sound]
  | false =>
      cases writes with
      | setMany writes =>
          let written : Memory := ⟨memory.entries.insertMany (batch writes), memory.poisoned⟩
          have soundToo : written.poisoned = false := sound
          have again : written.perform later (.setMany writes) = (.ok (), _) :=
            perform_setMany soundToo writes
          rw [SortedMap.insertMany_insertMany] at again
          rw [perform_setMany sound, perform_setMany sound]
          exact again
      | set key value ttl =>
          have written := perform_set sound key value (onClock_of_perform_set sound first)
          rw [written] at second ⊢
          have soundToo : ∀ entry, (memory.put key entry).poisoned = false := fun _ => sound
          have onClock := onClock_of_perform_set (soundToo _) second
          rw [perform_set sound key value onClock, perform_set (soundToo _) key value onClock, put_put]
      | hashSet key fields ttl =>
          have found : memory.mergeBase? later key = memory.mergeBase? earlier key := by
            rw [mergeBase?, mergeBase?, live?_eq_of_steady steady]
          cases base : memory.mergeBase? earlier key with
          | none =>
              have refused : memory.perform earlier (.hashSet key fields ttl) =
                  (.error wrongKind, memory) := by
                rw [perform_hashSet_eq sound, base]
              rw [refused]
          | some start =>
              obtain ⟨hash, expiresAt⟩ := start
              rw [base] at found
              have written := perform_hashSet sound base fields
                (onClock_of_perform_hashSet sound base first)
              rw [written] at second ⊢
              have soundToo : ∀ entry, (memory.put key entry).poisoned = false := fun _ => sound
              have still := isLive_of_mergeBase? (hash.insertMany fields) base steady
              have again := mergeBase?_put memory key still
              have onClock := onClock_of_perform_hashSet (soundToo _) again second
              rw [perform_hashSet (soundToo _) again fields onClock,
                perform_hashSet sound found fields onClock, put_put, SortedMap.insertMany_insertMany]
              cases ttl <;> rfl

end Memory

end Folio
