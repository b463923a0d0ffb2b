import Folio.Proofs.Store.Memory
import Folio.Store.Prompt

/-!
# Expired entries do not show

What counts in a store in memory is what a store holds that forgets at once.  A call
does the same to both and is answered alike, and time passing keeps them alike, so
however many requests are made in the order of time, no answer tells which expired
entries are still there.
-/

namespace Folio

/-! ## Requests -/

inductive Request where
  | call (sent : Call)
  | scan (pattern : String)
  /-- How many keys there are. -/
  | size

namespace Request

abbrev Answer : Request → Type
  | call sent => Except Failure sent.Answer
  | scan _ => Listing String
  | size => Nat

def ttl? : Request → Option Duration
  | call sent => sent.ttl?
  | scan _ | size => none

end Request

structure Asked where
  moment : Nat
  request : Request

abbrev Answered := (request : Request) × request.Answer

/-- What a store in memory answers to a request, and what becomes of it. -/
def Memory.respond (now : Nat) : (request : Request) → Memory → request.Answer × Memory
  | .call sent, memory => memory.perform now sent
  | .scan pattern, memory => (memory.listKeys now pattern, memory)
  | .size, memory => (memory.size now, memory)

def Memory.answers : List Asked → Memory → List Answered
  | [], _ => []
  | ⟨now, request⟩ :: rest, memory =>
      let (answer, after) := memory.respond now request
      ⟨request, answer⟩ :: answers rest after

def Prompt.respond (now : Nat) : (request : Request) → Prompt → request.Answer × Prompt
  | .call sent, store => store.perform now sent
  | .scan pattern, store => (store.listKeys pattern, store)
  | .size, store => (store.size, store)

/-- The answers of a store that forgets at once; it has forgotten when a request comes. -/
def Prompt.answers : List Asked → Prompt → List Answered
  | [], _ => []
  | ⟨now, request⟩ :: rest, store =>
      let (answer, after) := (store.elapse now).respond now request
      ⟨request, answer⟩ :: answers rest after

/-! ## What counts -/

namespace Prompt

theorem ext_get? {a b : Prompt} (same : ∀ key, a.entries.get? key = b.entries.get? key) : a = b :=
  congrArg mk (SortedMap.ext_get? same)

@[simp] theorem get?_elapse (now : Nat) (key : String) (store : Prompt) :
    (store.elapse now).entries.get? key = (store.entries.get? key).filter (Entry.isLive now) :=
  SortedMap.get?_filter store.entries _ key

@[simp] theorem get?_put (key other : String) (entry : Entry) (store : Prompt) :
    (store.put key entry).entries.get? other =
      if key = other then some entry else store.entries.get? other :=
  SortedMap.get?_insert store.entries key other entry

@[simp] theorem get?_drop (key other : String) (store : Prompt) :
    (store.drop key).entries.get? other = if key = other then none else store.entries.get? other :=
  SortedMap.get?_erase store.entries key other

end Prompt

/-- A deadline that is ahead at some moment was ahead before. -/
theorem Entry.isLive_of_le {entry : Entry} {now later : Nat} (order : now ≤ later)
    (live : entry.isLive later = true) : entry.isLive now = true := by
  obtain ⟨stored, expiresAt⟩ := entry
  cases expiresAt with
  | none => rfl
  | some deadline =>
      have ahead : later < deadline := of_decide_eq_true live
      exact decide_eq_true (Nat.lt_of_le_of_lt order ahead)

/-- What is left of an entry does not depend on when it was looked at before. -/
theorem Entry.filter_isLive_of_le {now later : Nat} (order : now ≤ later) (entry : Option Entry) :
    (entry.filter (isLive now)).filter (isLive later) = entry.filter (isLive later) := by
  cases entry with
  | none => rfl
  | some entry =>
      rw [Option.filter_some, Option.filter_some]
      cases live : entry.isLive later with
      | true =>
          rw [if_pos (isLive_of_le order live), Option.filter_some, live]
      | false =>
          split
          · rw [Option.filter_some, live]
          · rfl

/-- Time that passes in two steps passes as in one. -/
theorem Prompt.elapse_elapse {now later : Nat} (order : now ≤ later) (store : Prompt) :
    (store.elapse now).elapse later = store.elapse later := by
  refine ext_get? fun key => ?_
  rw [get?_elapse, get?_elapse, get?_elapse, Entry.filter_isLive_of_le order]

namespace Memory

variable {now later : Nat} {memory : Memory}

/-- What counts in a store at a moment, as a store that forgets at once. -/
def prompt (now : Nat) (memory : Memory) : Prompt := ⟨memory.liveEntries now⟩

@[simp] theorem get?_prompt (now : Nat) (key : String) (memory : Memory) :
    (memory.prompt now).entries.get? key = memory.live? now key :=
  SortedMap.get?_filter memory.entries _ key

/-- As time passes, what counted is forgotten where its deadline comes. -/
theorem prompt_later (order : now ≤ later) (memory : Memory) :
    memory.prompt later = (memory.prompt now).elapse later := by
  refine Prompt.ext_get? fun key => ?_
  rw [Prompt.get?_elapse, get?_prompt, get?_prompt, live?, live?, Entry.filter_isLive_of_le order]

theorem prompt_put (now : Nat) (key : String) (entry : Entry) (memory : Memory) :
    (memory.put key entry).prompt now = ((memory.prompt now).put key entry).elapse now := by
  refine Prompt.ext_get? fun other => ?_
  rw [Prompt.get?_elapse, Prompt.get?_put, get?_prompt, get?_prompt, live?, get?_put, live?]
  split
  · rfl
  · rw [Entry.filter_isLive_of_le (Nat.le_refl now)]

theorem prompt_drop (now : Nat) (key : String) (memory : Memory) :
    (memory.drop key).prompt now = ((memory.prompt now).drop key).elapse now := by
  refine Prompt.ext_get? fun other => ?_
  rw [Prompt.get?_elapse, Prompt.get?_drop, get?_prompt, get?_prompt, live?, get?_drop, live?]
  split
  · rfl
  · rw [Entry.filter_isLive_of_le (Nat.le_refl now)]

/-- Dropping an entry that does not count does not show. -/
theorem prompt_purge (now : Nat) (key : String) (memory : Memory) :
    (memory.purge now key).prompt now = memory.prompt now := by
  rw [purge]
  split
  · rename_i gone
    rw [Option.isNone_iff_eq_none] at gone
    refine Prompt.ext_get? fun other => ?_
    rw [get?_prompt, get?_prompt, live?, get?_drop]
    split
    · rename_i same
      rw [← same, gone]
      rfl
    · rfl
  · rfl

/-! ## One call -/

/-- Whether a store in memory and one that forgets at once answer alike and are left alike. -/
structure Agrees {α : Type} (now : Nat) (lazy : α × Memory) (prompt : α × Prompt) : Prop where
  answer : lazy.1 = prompt.1
  state : lazy.2.prompt now = prompt.2.elapse now

section Agrees

variable {α : Type} {answer : α} {key : String}

theorem Agrees.same : Agrees now (answer, memory) (answer, memory.prompt now) :=
  ⟨rfl, prompt_later (Nat.le_refl now) memory⟩

theorem Agrees.purge : Agrees now (answer, memory.purge now key) (answer, memory.prompt now) :=
  ⟨rfl, (prompt_purge now key memory).trans (prompt_later (Nat.le_refl now) memory)⟩

theorem Agrees.put (entry : Entry) :
    Agrees now (answer, memory.put key entry) (answer, (memory.prompt now).put key entry) :=
  ⟨rfl, prompt_put now key entry memory⟩

theorem Agrees.drop : Agrees now (answer, memory.drop key) (answer, (memory.prompt now).drop key) :=
  ⟨rfl, prompt_drop now key memory⟩

end Agrees

theorem readHash_prompt {α : Type} (now : Nat) (key : String) (look : SortedMap String → α)
    (memory : Memory) : (memory.prompt now).readHash key look = memory.readHash now key look := by
  rw [Prompt.readHash, get?_prompt]
  rfl

theorem contains_prompt (now : Nat) (key : String) (memory : Memory) :
    (memory.prompt now).entries.contains key = (memory.live? now key).isSome := by
  rw [SortedMap.contains, get?_prompt]

theorem agrees_foldl_put (writes : List (String × Bytes)) {lazy : Memory} {prompt : Prompt}
    (same : lazy.prompt now = prompt.elapse now) :
    (writes.foldl (fun memory entry => memory.put entry.1 ⟨.bytes entry.2, none⟩) lazy).prompt now =
      (writes.foldl (fun store entry => store.put entry.1 ⟨.bytes entry.2, none⟩) prompt).elapse
        now := by
  induction writes generalizing lazy prompt with
  | nil => exact same
  | cons write rest ih =>
      refine ih ?_
      rw [prompt_put, same]
      refine Prompt.ext_get? fun other => ?_
      rw [Prompt.get?_elapse, Prompt.get?_elapse, Prompt.get?_put, Prompt.get?_put,
        Prompt.get?_elapse]
      split
      · rfl
      · rw [Entry.filter_isLive_of_le (Nat.le_refl now)]

/-- Merging fields is putting the merged hash. -/
theorem agrees_mergeHash (memory : Memory) (key : String) (fields : List (String × String))
    {ttl : Option Duration} (hash : SortedMap String) (expiresAt : Option Nat)
    (onClock : OnClock now ttl) :
    Agrees now (mergeHash now key fields ttl hash expiresAt memory)
      (.ok (), (memory.prompt now).put key
        ⟨.hash (hash.insertMany fields), (Prompt.deadline now ttl).or expiresAt⟩) := by
  rw [mergeHash_eq key fields hash expiresAt onClock]
  exact .put _

/-- A call whose deadline is on the clock does the same to both stores. -/
theorem agrees_perform (sound : memory.poisoned = false) (call : Call)
    (onClock : OnClock now call.ttl?) :
    Agrees now (memory.perform now call) ((memory.prompt now).perform now call) := by
  cases call with
  | get key =>
      rw [perform_of_sound sound, performSound, Prompt.perform, get?_prompt]
      cases memory.live? now key with
      | none => exact .same
      | some entry =>
          obtain ⟨stored, _⟩ := entry
          cases stored with
          | bytes value => exact .same
          | hash hash => exact .same
  | set key value ttl =>
      have onClock : OnClock now ttl := onClock
      rw [perform_set sound key value onClock]
      exact .put _
  | setMany writes =>
      rw [perform_of_sound sound]
      exact ⟨rfl, agrees_foldl_put writes (prompt_later (Nat.le_refl now) memory)⟩
  | hashSet key fields ttl =>
      have onClock : OnClock now ttl := onClock
      rw [perform_of_sound sound, performSound, Prompt.perform, get?_prompt]
      cases memory.live? now key with
      | none =>
          have merged := agrees_mergeHash memory key fields .empty none onClock
          rw [Option.or_none] at merged
          exact merged
      | some entry =>
          obtain ⟨stored, expiresAt⟩ := entry
          cases stored with
          | bytes value => exact .same
          | hash hash => exact agrees_mergeHash memory key fields hash expiresAt onClock
  | hashGetAll key =>
      rw [perform_of_sound sound, performSound, Prompt.perform, readHash_prompt]
      exact .same
  | hashGetMany key fields =>
      rw [perform_of_sound sound, performSound, Prompt.perform, readHash_prompt]
      exact .same
  | hashGet key field =>
      rw [perform_of_sound sound, performSound, Prompt.perform, readHash_prompt]
      exact .same
  | delete key =>
      rw [perform_of_sound sound, performSound, Prompt.perform, contains_prompt]
      exact .drop
  | setIfAbsent key token ttl =>
      rw [perform_of_sound sound, performSound, Prompt.perform, contains_prompt,
        deadline?_of_lt (onClock ttl rfl)]
      split
      · exact .same
      · exact .put _
  | expireIfEqual key token ttl =>
      rw [perform_of_sound sound, performSound, Prompt.perform, get?_prompt,
        deadline?_of_lt (onClock ttl rfl)]
      cases (memory.live? now key).filter (Entry.holds token) with
      | none => exact .purge
      | some entry => exact .put _
  | deleteIfEqual key token =>
      rw [perform_of_sound sound, performSound, Prompt.perform, get?_prompt]
      cases (memory.live? now key).filter (Entry.holds token) with
      | none => exact .purge
      | some entry => exact .drop

/-! ## One request -/

/-- The keys that are listed are those that count and match. -/
theorem listKeys_prompt (sound : memory.poisoned = false) (now : Nat) (pattern : String) :
    memory.listKeys now pattern = (memory.prompt now).listKeys pattern := by
  unfold listKeys Prompt.listKeys
  cases KeyPattern.compile pattern with
  | error fault => rfl
  | ok compiled =>
      dsimp only
      rw [sound, if_neg Bool.false_ne_true]
      have keys : (memory.entries.filter fun key entry =>
          entry.isLive now && compiled.isMatch key).keys =
            (memory.prompt now).entries.keys.filter compiled.isMatch := by
        simp only [SortedMap.keys, SortedMap.filter, prompt, liveEntries, List.filter_map,
          List.filter_filter, Function.comp_def, Bool.and_comm]
      rw [keys]

theorem size_prompt (sound : memory.poisoned = false) (now : Nat) :
    memory.size now = (memory.prompt now).size := by
  rw [size, sound]
  rfl

/-- A request does the same to both stores. -/
theorem agrees_respond (sound : memory.poisoned = false) (request : Request)
    (onClock : OnClock now request.ttl?) :
    Agrees now (memory.respond now request) ((memory.prompt now).respond now request) := by
  cases request with
  | call sent => exact agrees_perform sound sent onClock
  | scan pattern =>
      rw [respond, Prompt.respond, listKeys_prompt sound]
      exact .same
  | size =>
      rw [respond, Prompt.respond, size_prompt sound]
      exact .same

/-- A request whose deadline is on the clock does not poison the store. -/
theorem poisoned_respond (sound : memory.poisoned = false) (request : Request)
    (onClock : OnClock now request.ttl?) : (memory.respond now request).2.poisoned = false := by
  cases request with
  | call sent => exact ((leaves_perform now sent memory).poisoned onClock).trans sound
  | scan pattern => exact sound
  | size => exact sound

end Memory

/-! ## Many requests -/

/-- Whether no request is made before an earlier one. -/
def InOrder (requests : List Asked) : Prop :=
  requests.Pairwise fun earlier later => earlier.moment ≤ later.moment

/-- Stores that are alike when the first request comes answer all requests alike. -/
theorem answers_of_prompt_eq {requests : List Asked} (ordered : InOrder requests)
    (onClock : ∀ asked ∈ requests, Memory.OnClock asked.moment asked.request.ttl?)
    {memory : Memory} (sound : memory.poisoned = false) {store : Prompt}
    (alike : ∀ asked ∈ requests, memory.prompt asked.moment = store.elapse asked.moment) :
    memory.answers requests = store.answers requests := by
  induction requests generalizing memory store with
  | nil => rfl
  | cons asked rest ih =>
      obtain ⟨now, request⟩ := asked
      obtain ⟨first, others⟩ := List.pairwise_cons.1 ordered
      have here := onClock _ List.mem_cons_self
      have agrees := Memory.agrees_respond sound request here
      have begun : memory.prompt now = store.elapse now := alike _ List.mem_cons_self
      rw [begun] at agrees
      have later : ∀ asked ∈ rest, (memory.respond now request).2.prompt asked.moment =
          ((store.elapse now).respond now request).2.elapse asked.moment := by
        intro asked mem
        have order : now ≤ asked.moment := first asked mem
        rw [Memory.prompt_later order, agrees.state, Prompt.elapse_elapse order]
      have tail := ih others (fun asked mem => onClock asked (List.mem_cons_of_mem _ mem))
        (Memory.poisoned_respond sound request here) later
      rw [Memory.answers, Prompt.answers]
      dsimp only
      rw [tail, agrees.answer]

/--
Whatever a store in memory still holds of entries that have expired, its answers to requests in the
order of time are those of a store from which entries vanish at their deadlines.
-/
theorem expired_entries_do_not_show (memory : Memory) (sound : memory.poisoned = false)
    (requests : List Asked) (ordered : InOrder requests)
    (onClock : ∀ asked ∈ requests, Memory.OnClock asked.moment asked.request.ttl?) :
    memory.answers requests = Prompt.answers requests ⟨memory.entries⟩ :=
  answers_of_prompt_eq ordered onClock sound fun _ _ => rfl

/-- A lock that ran out is free again, and a hash that ran out leaves no fields to the next one. -/
theorem expired_entries_do_not_show_example :
    let memory := (Memory.empty.put "lock" ⟨.bytes (Text.utf8 "a"), some 5⟩).put "notes:a"
      ⟨.hash (.ofList [("m", "1")]), some 6⟩
    let requests : List Asked :=
      [⟨6, .size⟩, ⟨6, .call (.setIfAbsent "lock" "b" ⟨3, by decide⟩)⟩,
        ⟨8, .call (.hashSet "notes:a" [("n", "2")] none)⟩, ⟨8, .call (.hashGetAll "notes:a")⟩,
        ⟨9, .call (.expireIfEqual "lock" "b" ⟨3, by decide⟩)⟩]
    memory.entries.size = 2 ∧
      memory.answers requests =
        [⟨.size, 0⟩, ⟨.call (.setIfAbsent "lock" "b" ⟨3, by decide⟩), .ok true⟩,
          ⟨.call (.hashSet "notes:a" [("n", "2")] none), .ok ()⟩,
          ⟨.call (.hashGetAll "notes:a"), .ok [("n", "2")]⟩,
          ⟨.call (.expireIfEqual "lock" "b" ⟨3, by decide⟩), .ok false⟩] ∧
      memory.answers requests = Prompt.answers requests ⟨memory.entries⟩ := by
  intro memory requests
  have ordered : InOrder requests := by
    unfold InOrder
    decide
  have onClock : ∀ asked ∈ requests, Memory.OnClock asked.moment asked.request.ttl? := by
    simp [requests, Memory.OnClock, Request.ttl?, Call.ttl?, Memory.horizon, nanosPerSecond]
  exact ⟨by decide +kernel, rfl, expired_entries_do_not_show memory rfl requests ordered onClock⟩

end Folio
