import Folio.Proofs.Store.Prompt

/-!
# What counts in a store has content

A merge of no fields into a key that holds nothing leaves an empty hash behind.  The key
then counts: it is listed, it can be removed and no lock can be taken under it, but a
reader finds nothing.  No other request leaves a key like that, so without such merges
exactly the keys count in which a reader finds something.
-/

namespace Folio

/-- Whether something is in what a key holds: a value, even one of no bytes, or a field. -/
def Stored.hasContent : Stored → Bool
  | bytes _ => true
  | hash fields => !fields.isEmpty

/-- Whether a request merges no fields into a key. -/
def Request.isBareMerge (key : String) : Request → Bool
  | .call (.hashSet other fields _) => decide (other = key) && fields.isEmpty
  | _ => false

namespace Memory

def behind : List Asked → Memory → Memory
  | [], memory => memory
  | ⟨now, request⟩ :: rest, memory => behind rest (memory.respond now request).2

/-- Whether one of some requests merges no fields into a key of a sound store that holds nothing. -/
def meetsBareMerge (key : String) : List Asked → Memory → Bool
  | [], _ => false
  | ⟨now, request⟩ :: rest, memory =>
      (request.isBareMerge key && !memory.poisoned && (memory.live? now key).isNone) ||
        meetsBareMerge key rest (memory.respond now request).2

/-- Whether a reader finds something under a key: its value or a field of its hash. -/
def ShowsContent (now : Nat) (key : String) (memory : Memory) : Prop :=
  (∃ value, (memory.perform now (.get key)).1 = .ok (some value)) ∨
    ∃ field fields, (memory.perform now (.hashGetAll key)).1 = .ok (field :: fields)

/-- Whether a key counts at a moment iff a reader finds something under it. -/
structure CountsByContent (now : Nat) (key : String) (memory : Memory) : Prop where
  content : ∀ entry ∈ memory.live? now key, entry.stored.hasContent = true
  /-- Removing the key tells that there was something. -/
  removed : (memory.perform now (.delete key)).1 = .ok true ↔ memory.ShowsContent now key
  /-- No lock can be taken under the key. -/
  taken : ∀ token ttl,
    (memory.perform now (.setIfAbsent key token ttl)).1 = .ok false ↔ memory.ShowsContent now key
  listed : ∀ pattern, key ∈ (memory.listKeys now pattern).found ↔
    ∃ compiled, KeyPattern.compile pattern = .ok compiled ∧ compiled.isMatch key = true ∧
      memory.ShowsContent now key

/-- Whether a key holds nothing or something with content, expired or not. -/
def Filled (key : String) (memory : Memory) : Prop :=
  ∀ entry ∈ memory.entries.get? key, entry.stored.hasContent = true

variable {now : Nat} {key : String} {memory : Memory}

/-! ## One request -/

theorem Filled.put (filled : memory.Filled key) {other : String} {entry : Entry}
    (content : other = key → entry.stored.hasContent = true) :
    (memory.put other entry).Filled key := by
  intro held mem
  rw [get?_put] at mem
  split at mem
  · rename_i own
    cases mem
    exact content own
  · exact filled held mem

theorem Filled.drop (filled : memory.Filled key) (other : String) :
    (memory.drop other).Filled key := by
  intro held mem
  rw [get?_drop] at mem
  split at mem
  · cases mem
  · exact filled held mem

theorem Filled.purge (filled : memory.Filled key) (now : Nat) (other : String) :
    (memory.purge now other).Filled key := by
  unfold Memory.purge
  split
  · exact filled.drop other
  · exact filled

theorem Filled.live (filled : memory.Filled key) (now : Nat) :
    ∀ entry ∈ memory.live? now key, entry.stored.hasContent = true :=
  fun entry mem => filled entry (Option.filter_eq_some_iff.1 mem).1

theorem Filled.foldl_put (filled : memory.Filled key) (writes : List (String × Bytes)) :
    (writes.foldl (fun memory entry => memory.put entry.1 ⟨.bytes entry.2, none⟩)
      memory).Filled key := by
  induction writes generalizing memory with
  | nil => exact filled
  | cons write rest ih => exact ih (filled.put fun _ => rfl)

theorem filled_mergeHash (filled : memory.Filled key) {other : String}
    {fields : List (String × String)} {hash : SortedMap String}
    (content : other = key → (hash.insertMany fields).isEmpty = false) (ttl : Option Duration)
    (expiresAt : Option Nat) :
    (mergeHash now other fields ttl hash expiresAt memory).2.Filled key := by
  have put : ∀ deadline, (memory.put other ⟨.hash (hash.insertMany fields), deadline⟩).Filled key :=
    fun deadline => filled.put fun own => by rw [Stored.hasContent, content own]; rfl
  unfold mergeHash
  cases ttl with
  | none => exact put expiresAt
  | some ttl =>
      dsimp only
      split
      · exact put _
      -- The lock is poisoned behind the merge, which stays.
      · exact put expiresAt

/-- A call leaves content in a key, unless it merges no fields into the key and finds nothing. -/
theorem filled_performSound (filled : memory.Filled key) {call : Call}
    (content : (Request.call call).isBareMerge key = true → (memory.live? now key).isSome = true) :
    (performSound now call memory).2.Filled key := by
  cases call with
  | get other =>
      rw [performSound]
      split <;> exact filled
  | set other value ttl =>
      cases ttl with
      | none => exact filled.put fun _ => rfl
      | some ttl =>
          cases deadline : deadline? now ttl with
          | none =>
              simp only [performSound, deadline]
              exact filled
          | some moment =>
              simp only [performSound, deadline]
              exact filled.put fun _ => rfl
  | setMany writes => exact filled.foldl_put writes
  | hashSet other fields ttl =>
      rw [performSound]
      cases held : memory.live? now other with
      | none =>
          refine filled_mergeHash filled (fun own => ?_) ttl none
          subst own
          rw [held] at content
          rw [SortedMap.isEmpty_insertMany]
          -- Without fields the merge would be a bare one that finds nothing.
          cases fields with
          | nil => cases content (by simp [Request.isBareMerge])
          | cons field rest => rfl
      | some entry =>
          obtain ⟨stored, expiresAt⟩ := entry
          cases stored with
          | bytes value => exact filled
          | hash hash =>
              refine filled_mergeHash filled (fun own => ?_) ttl expiresAt
              subst own
              have some : (!hash.isEmpty) = true := filled.live now _ held
              rw [Bool.not_eq_true'] at some
              rw [SortedMap.isEmpty_insertMany, some, Bool.false_and]
  | hashGetAll other | hashGetMany other fields | hashGet other field => exact filled
  | delete other => exact filled.drop other
  | setIfAbsent other token ttl =>
      rw [performSound]
      split
      · exact filled
      · split
        · exact filled.put fun _ => rfl
        · exact filled.drop other
  | expireIfEqual other token ttl =>
      rw [performSound]
      split
      · exact filled.purge now other
      · rename_i entry held
        split
        · refine filled.put fun own => ?_
          subst own
          exact filled.live now entry (Option.filter_eq_some_iff.1 held).1
        · exact filled
  | deleteIfEqual other token =>
      rw [performSound]
      split
      · exact filled.purge now other
      · exact filled.drop other

theorem filled_respond (filled : memory.Filled key) {request : Request}
    (content : request.isBareMerge key = true → memory.poisoned = false →
      (memory.live? now key).isSome = true) :
    (memory.respond now request).2.Filled key := by
  cases request with
  | call sent =>
      rw [respond]
      cases poisoned : memory.poisoned with
      | true =>
          rw [perform_of_poisoned poisoned]
          exact filled
      | false =>
          rw [perform_of_sound poisoned]
          exact filled_performSound filled fun bare => content bare poisoned
  | scan pattern => exact filled
  | size => exact filled

/-! ## Many requests -/

theorem filled_behind {requests : List Asked} (filled : memory.Filled key)
    (never : memory.meetsBareMerge key requests = false) : (memory.behind requests).Filled key := by
  induction requests generalizing memory with
  | nil => exact filled
  | cons asked rest ih =>
      obtain ⟨now, request⟩ := asked
      obtain ⟨here, later⟩ := Bool.or_eq_false_iff.1 never
      refine ih (filled_respond filled fun bare sound => ?_) later
      rw [bare, sound, Bool.not_false, Bool.true_and, Bool.true_and,
        Option.isNone_eq_false_iff] at here
      exact here

theorem filled_empty (key : String) : Memory.empty.Filled key := nofun

/-! ## Readers -/

/-- A reader finds something iff the store is sound and the key holds something with content. -/
theorem showsContent_iff : memory.ShowsContent now key ↔
    memory.poisoned = false ∧ ∃ entry ∈ memory.live? now key, entry.stored.hasContent = true := by
  unfold ShowsContent
  cases poisoned : memory.poisoned with
  | true =>
      rw [perform_poisoned poisoned (onClock_none now),
        perform_poisoned poisoned (onClock_none now)]
      simp
  | false =>
      have answered := perform_of_sound poisoned now
      rw [answered, answered, performSound, performSound, readHash]
      cases memory.live? now key with
      | none => simp [SortedMap.empty]
      | some entry =>
          obtain ⟨stored, _⟩ := entry
          cases stored with
          | bytes value => simp [Stored.hasContent]
          | hash fields =>
              cases held : fields.entries <;> simp [Stored.hasContent, SortedMap.isEmpty, held]

/-- In a key that holds nothing without content a reader finds something iff there is something. -/
theorem Filled.showsContent_iff (filled : memory.Filled key) (now : Nat) :
    memory.ShowsContent now key ↔
      memory.poisoned = false ∧ (memory.live? now key).isSome = true := by
  rw [Memory.showsContent_iff, Option.isSome_iff_exists]
  refine and_congr_right fun _ => ⟨?_, ?_⟩
  · rintro ⟨entry, mem, -⟩
    exact ⟨entry, mem⟩
  · rintro ⟨entry, mem⟩
    exact ⟨entry, mem, filled.live now entry mem⟩

/-! ## What counts -/

theorem mem_listKeys_iff (pattern : String) : key ∈ (memory.listKeys now pattern).found ↔
    ∃ compiled, KeyPattern.compile pattern = .ok compiled ∧ compiled.isMatch key = true ∧
      memory.poisoned = false ∧ (memory.live? now key).isSome = true := by
  unfold listKeys
  cases KeyPattern.compile pattern with
  | error fault => simp
  | ok compiled =>
      cases poisoned : memory.poisoned with
      | true => simp
      | false =>
          simp only [Bool.false_eq_true, if_false, SortedMap.mem_keys_iff, SortedMap.get?_filter,
            live?]
          cases memory.entries.get? key <;> simp [Option.filter_some, and_comm]

theorem Filled.countsByContent (filled : memory.Filled key) (now : Nat) :
    memory.CountsByContent now key := by
  refine ⟨filled.live now, ?_, fun token ttl => ?_, fun pattern => ?_⟩
  · rw [filled.showsContent_iff]
    cases poisoned : memory.poisoned with
    | true => simp [perform, poisoned]
    | false => simp [perform_of_sound poisoned, performSound]
  · rw [filled.showsContent_iff]
    cases poisoned : memory.poisoned with
    | true => simp [perform, poisoned]
    | false =>
        rw [perform_of_sound poisoned, performSound]
        cases (memory.live? now key).isSome with
        | true => simp
        | false => cases deadline : deadline? now ttl <;> simp
  · rw [filled.showsContent_iff]
    exact mem_listKeys_iff pattern

/-- What is counted are the keys that hold something, unless the store is poisoned. -/
theorem size_eq_ncard : memory.size now =
    {key | memory.poisoned = false ∧ (memory.live? now key).isSome = true}.ncard := by
  unfold size
  cases memory.poisoned with
  | true => simp
  | false =>
      rw [if_neg Bool.false_ne_true, SortedMap.size_eq_ncard]
      simp only [liveEntries, SortedMap.get?_filter, live?, true_and]

/-- A merge of no fields into a key that holds nothing makes the key count without content. -/
theorem perform_bareMerge (sound : memory.poisoned = false) (absent : memory.live? now key = none)
    {ttl : Option Duration} (onClock : OnClock now ttl) {later : Nat}
    (before : ∀ d ∈ ttl, later < now + d.nanos) :
    ((memory.perform now (.hashSet key [] ttl)).2.perform later (.delete key)).1 = .ok true ∧
      ¬ (memory.perform now (.hashSet key [] ttl)).2.ShowsContent later key := by
  have base : memory.mergeBase? now key = some (.empty, none) := by rw [mergeBase?, absent]
  have left : (memory.perform now (.hashSet key [] ttl)).2 =
      memory.put key ⟨.hash .empty, ttl.map (now + ·.nanos)⟩ := by
    rw [perform_hashSet sound base [] onClock, Option.or_none]
    rfl
  have live : (memory.put key ⟨.hash .empty, ttl.map (now + ·.nanos)⟩).live? later key =
      some ⟨.hash .empty, ttl.map (now + ·.nanos)⟩ := by
    rw [live?, get?_put, if_pos rfl, Option.filter_some, if_pos]
    cases ttl with
    | none => rfl
    | some d => exact decide_eq_true (before d rfl)
  have soundToo : ∀ entry, (memory.put key entry).poisoned = false := fun _ => sound
  rw [left]
  refine ⟨?_, fun shows => ?_⟩
  · rw [perform_of_sound (soundToo _), performSound, live]
    rfl
  · obtain ⟨-, entry, mem, content⟩ := showsContent_iff.1 shows
    obtain rfl := Option.some.inj (live.symm.trans mem)
    cases content

end Memory

/--
In every store that requests leave of the empty one, whatever their order and moments, a key counts
iff a reader finds something under it, unless no fields were merged into the key while it held
nothing; and if that happened to no key, the size is the number of keys in which a reader finds
something.  Wherever it happens, the key counts without content for as long as it lives.
-/
theorem keys_count_by_content (requests : List Asked) (now : Nat) :
    let memory := Memory.empty.behind requests
    (∀ key, Memory.empty.meetsBareMerge key requests = false → memory.CountsByContent now key) ∧
    ((∀ key, Memory.empty.meetsBareMerge key requests = false) →
      memory.size now = {key | memory.ShowsContent now key}.ncard) ∧
    ∀ key ttl, memory.poisoned = false → memory.live? now key = none → Memory.OnClock now ttl →
      ∀ later, (∀ d ∈ ttl, later < now + d.nanos) →
        ((memory.perform now (.hashSet key [] ttl)).2.perform later (.delete key)).1 = .ok true ∧
          ¬ (memory.perform now (.hashSet key [] ttl)).2.ShowsContent later key := by
  intro memory
  have filled : ∀ key, Memory.empty.meetsBareMerge key requests = false → memory.Filled key :=
    fun key => Memory.filled_behind (Memory.filled_empty key)
  refine ⟨fun key never => (filled key never).countsByContent now, fun never => ?_,
    fun key ttl sound absent onClock later => Memory.perform_bareMerge sound absent onClock⟩
  rw [Memory.size_eq_ncard]
  simp only [fun key => (filled key (never key)).showsContent_iff now]

/-- No fields are merged into a hash that is there, and then into a key that holds nothing. -/
theorem keys_count_by_content_example :
    let requests : List Asked :=
      [⟨0, .call (.hashSet "notes:a" [("n", "1")] (some ⟨9, by decide⟩))⟩,
        ⟨1, .call (.hashSet "notes:a" [] none)⟩, ⟨2, .call (.set "notes:b" [] none)⟩]
    let memory := Memory.empty.behind requests
    memory.CountsByContent 3 "notes:a" ∧
      memory.size 3 = {key | memory.ShowsContent 3 key}.ncard ∧
      ((memory.perform 3 (.hashSet "notes:c" [] none)).2.perform 4 (.delete "notes:c")).1 =
        .ok true := by
  intro requests memory
  have never : ∀ key, Memory.empty.meetsBareMerge key requests = false := by
    intro key
    by_cases own : "notes:a" = key
    · subst own
      rfl
    · simp [requests, Memory.meetsBareMerge, Request.isBareMerge, own]
  obtain ⟨counts, size, bare⟩ := keys_count_by_content requests 3
  exact ⟨counts "notes:a" (never _), size never,
    (bare "notes:c" none rfl rfl (Memory.onClock_none 3) 4 nofun).1⟩

/-- A merge of no fields is counted, listed, removed and in the way of a lock without content. -/
theorem bare_merge_counts :
    let memory := Memory.empty.behind [⟨0, .call (.hashSet "h" [] none)⟩]
    (memory.live? 1 "h").map (·.stored.hasContent) = some false ∧
      memory.size 1 = 1 ∧
      (memory.listKeys 1 "*").found = ["h"] ∧
      (memory.perform 1 (.delete "h")).1 = .ok true ∧
      (memory.perform 1 (.setIfAbsent "h" "t" ⟨7, by decide⟩)).1 = .ok false ∧
      ¬ memory.ShowsContent 1 "h" := by
  intro memory
  refine ⟨rfl, rfl, by decide +kernel, rfl, rfl, fun shows => ?_⟩
  obtain ⟨value, read⟩ | ⟨field, fields, read⟩ := shows
  · cases read
  · cases read

end Folio
