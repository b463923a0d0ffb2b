import Folio.Proofs.Access.Check

/-!
# Batches of documents

Storing several documents at once is storing them one after the other without a time to
live: the last document of a location stays, whatever its key held before is replaced,
and nothing else changes.  A batch in which some document has no blob is refused as a
whole, for the first such document.
-/

namespace Folio

namespace Whole

/-- The writes of a batch under the key of a location are those of its documents there. -/
theorem filter_writes (schema : Schema) (docs : List (Location × Document)) (location : Location) :
    (writes schema docs).filter (fun write => write.1 = schema.key location) =
      writes schema (docs.filter fun entry => entry.1 = location) := by
  rw [writes, List.filter_map, writes]
  congr 1
  apply List.filter_congr
  intro entry _
  have same : schema.key entry.1 = schema.key location ↔ entry.1 = location :=
    ⟨fun keys => (Schema.key_inj keys).2, fun places => by rw [places]⟩
  simp [same]

/-- A document without a blob is what its batch is refused for, if all documents before it have one. -/
theorem preparePutMany_of_obstacle (schema : Schema) {front behind : List (Location × Document)}
    (encodable : ∀ entry ∈ front, entry.2.Encodable) (location : Location) {doc : Document}
    {obstacle : Unencodable} (refused : doc.toBlob = .error obstacle) :
    preparePutMany schema.name (front ++ (location, doc) :: behind) =
      .error (.unencodable obstacle) := by
  have stopped : entries schema.name (front ++ (location, doc) :: behind) =
      .error (.unencodable obstacle) := by
    induction front with
    | nil =>
        have here : entry schema.name location doc = .error (.unencodable obstacle) := by
          rw [entry, documentKey_name, encode, refused]
          rfl
        rw [List.nil_append, entries, here]
        rfl
    | cons first rest ih =>
        have blob := encode_of_encodable (encodable first List.mem_cons_self)
        have written : entry schema.name first.1 first.2 = .ok (schema.key first.1, first.2.blob) :=
          entry_eq_ok_iff.2 ⟨documentKey_name schema first.1, blob⟩
        rw [List.cons_append, entries, written,
          ih fun other mem => encodable other (List.mem_cons_of_mem first mem)]
        rfl
  rw [preparePutMany, checkSchema_eq_ok_iff.2 rfl]
  exact stopped

/-- In a batch that not all documents have a blob of, some document is the first without one. -/
theorem exists_first_obstacle {docs : List (Location × Document)}
    (unencodable : ¬∀ entry ∈ docs, entry.2.Encodable) :
    ∃ front location doc behind obstacle, docs = front ++ (location, doc) :: behind ∧
      (∀ entry ∈ front, entry.2.Encodable) ∧ doc.toBlob = .error obstacle := by
  induction docs with
  | nil => exact absurd (fun _ => nofun) unencodable
  | cons first rest ih =>
      obtain ⟨location, doc⟩ := first
      cases blob : doc.toBlob with
      | error obstacle => exact ⟨[], location, doc, rest, obstacle, rfl, fun _ => nofun, blob⟩
      | ok bytes =>
          have here := (Document.exists_toBlob_iff doc).1 ⟨bytes, blob⟩
          have later : ¬∀ entry ∈ rest, entry.2.Encodable := fun others =>
            unencodable (List.forall_mem_cons.2 ⟨here, others⟩)
          obtain ⟨front, place, other, behind, obstacle, rfl, before, refused⟩ := ih later
          exact ⟨(location, doc) :: front, place, other, behind, obstacle, rfl,
            List.forall_mem_cons.2 ⟨here, before⟩, refused⟩

end Whole

/-! ## Batches -/

namespace Client

/-- Put documents one after the other, each at a moment of its own; none of them expires. -/
def putEach (client : Client) (schema : String) :
    List (Nat × Location × Document) → Memory → Memory
  | [], memory => memory
  | (now, location, doc) :: rest, memory =>
      client.putEach schema rest (client.run now (.put schema location doc none) memory).2

variable (client : Client) (schema : Schema) {memory : Memory}

theorem putEach_eq_self {puts : List (Nat × Location × Document)}
    (encodable : ∀ put ∈ puts, put.2.2.Encodable)
    (refused : client.isCancelled = true ∨ memory.poisoned = true) :
    client.putEach schema.name puts memory = memory := by
  induction puts with
  | nil => rfl
  | cons put rest ih =>
      obtain ⟨now, location, doc⟩ := put
      have here : doc.Encodable := encodable (now, location, doc) List.mem_cons_self
      have kept : (client.run now (.put schema.name location doc none) memory).2 = memory := by
        rw [client.run_put now schema location memory here (by rintro _ ⟨⟩)]
        split
        · rfl
        · rename_i runs
          exact Memory.perform_of_poisoned (refused.resolve_left runs) now _
      rw [putEach, kept]
      exact ih fun other mem => encodable other (List.mem_cons_of_mem _ mem)

/-- Documents that are put one after the other are written one after the other. -/
theorem putEach_eq_foldl {puts : List (Nat × Location × Document)}
    (encodable : ∀ put ∈ puts, put.2.2.Encodable) (runs : client.isCancelled = false)
    (sound : memory.poisoned = false) :
    client.putEach schema.name puts memory =
      (Whole.writes schema (puts.map (·.2))).foldl
        (fun memory entry => memory.put entry.1 ⟨.bytes entry.2, none⟩) memory := by
  induction puts generalizing memory with
  | nil => rfl
  | cons put rest ih =>
      obtain ⟨now, location, doc⟩ := put
      have here : doc.Encodable := encodable (now, location, doc) List.mem_cons_self
      have written : (client.run now (.put schema.name location doc none) memory).2 =
          memory.put (schema.key location) ⟨.bytes doc.blob, none⟩ := by
        rw [client.run_put now schema location memory here (by rintro _ ⟨⟩), runs,
          if_neg Bool.false_ne_true, Memory.perform_of_sound sound]
        rfl
      rw [putEach, written]
      exact ih (fun other mem => encodable other (List.mem_cons_of_mem _ mem)) sound

/-- What comes of a batch whose documents all have blobs. -/
theorem run_batch (now : Nat) {docs : List (Location × Document)} (nonempty : docs ≠ [])
    (encodable : ∀ entry ∈ docs, entry.2.Encodable) :
    client.run now (.putMany schema.name docs) memory =
      if client.isCancelled then (.error .cancelled, memory)
      else if memory.poisoned then (.error Memory.lockPoisoned, memory)
      else (.ok (), (Whole.writes schema docs).foldl
        (fun memory entry => memory.put entry.1 ⟨.bytes entry.2, none⟩) memory) := by
  rw [client.run_putMany now schema memory nonempty encodable]
  cases poisoned : memory.poisoned with
  | true => rw [Memory.perform_poisoned poisoned (Memory.onClock_none now), if_pos rfl]
  | false => rw [Memory.perform_of_sound poisoned, if_neg Bool.false_ne_true]; rfl

theorem run_batch_refused (now : Nat) {front behind : List (Location × Document)}
    (encodable : ∀ entry ∈ front, entry.2.Encodable) (location : Location) {doc : Document}
    {obstacle : Unencodable} (refused : doc.toBlob = .error obstacle) :
    client.run now (.putMany schema.name (front ++ (location, doc) :: behind)) memory =
      (.error (.unencodable obstacle), memory) := by
  unfold run
  dsimp only [Operation.act, Whole.putMany, Action.checked]
  rw [Whole.preparePutMany_of_obstacle schema encodable location refused]

/-- A batch that succeeds has all its documents written, one after the other. -/
theorem run_batch_of_ok {now : Nat} {docs : List (Location × Document)}
    (succeeds : (client.run now (.putMany schema.name docs) memory).1 = .ok ()) :
    (client.run now (.putMany schema.name docs) memory).2 =
      (Whole.writes schema docs).foldl
        (fun memory entry => memory.put entry.1 ⟨.bytes entry.2, none⟩) memory := by
  by_cases encodable : ∀ entry ∈ docs, entry.2.Encodable
  · by_cases empty : docs = []
    · rw [empty, client.run_putMany_nil]
      rfl
    · rw [client.run_batch schema now empty encodable] at succeeds ⊢
      split at succeeds
      · cases succeeds
      · rename_i runs
        rw [if_neg runs]
        split at succeeds
        · cases succeeds
        · rename_i sound
          rw [if_neg sound]
  · obtain ⟨front, location, doc, behind, obstacle, rfl, before, refused⟩ :=
      Whole.exists_first_obstacle encodable
    rw [client.run_batch_refused schema now before location refused] at succeeds
    cases succeeds

end Client

structure ActsAsPuts (client : Client) (now : Nat) (schema : Schema)
    (docs : List (Location × Document)) (memory : Memory) : Prop where
  /-- If all documents have blobs, only a client or a store that is of no use is an obstacle. -/
  answer : (∀ entry ∈ docs, entry.2.Encodable) →
    (client.run now (.putMany schema.name docs) memory).1 =
      if docs = [] then .ok ()
      else if client.isCancelled then .error .cancelled
      else if memory.poisoned then .error Memory.lockPoisoned
      else .ok ()
  /-- The store is left as by putting the documents in their order, at whatever moments. -/
  same : (∀ entry ∈ docs, entry.2.Encodable) →
    ∀ puts : List (Nat × Location × Document), puts.map (·.2) = docs →
      (client.run now (.putMany schema.name docs) memory).2 =
        client.putEach schema.name puts memory
  /-- The last document of a location takes the place of whatever was there, and does not expire. -/
  last : (client.run now (.putMany schema.name docs) memory).1 = .ok () → ∀ location : Location,
    (client.run now (.putMany schema.name docs) memory).2.entries.get? (schema.key location) =
      ((docs.filter fun entry => entry.1 = location).getLast?.map fun entry =>
        (⟨.bytes entry.2.blob, none⟩ : Entry)).or (memory.entries.get? (schema.key location))
  /-- The first document without a blob has the batch refused, and nothing is written. -/
  refused : (¬∀ entry ∈ docs, entry.2.Encodable) →
    ∃ front location doc behind obstacle, docs = front ++ (location, doc) :: behind ∧
      (∀ entry ∈ front, entry.2.Encodable) ∧ doc.toBlob = .error obstacle ∧
      client.run now (.putMany schema.name docs) memory = (.error (.unencodable obstacle), memory)
  /-- What is held under other keys stays, its deadline included. -/
  others : ∀ key, (∀ entry ∈ docs, schema.key entry.1 ≠ key) →
    (client.run now (.putMany schema.name docs) memory).2.entries.get? key =
      memory.entries.get? key

/-- A batch is its documents put one after the other, or nothing at all. -/
theorem batch_acts_as_puts (client : Client) (now : Nat) (schema : Schema)
    (docs : List (Location × Document)) (memory : Memory) :
    ActsAsPuts client now schema docs memory where
  answer encodable := by
    by_cases empty : docs = []
    · rw [if_pos empty, empty, client.run_putMany_nil]
    · rw [if_neg empty, client.run_batch schema now empty encodable]
      split
      · rfl
      · split <;> rfl
  same encodable puts listed := by
    have each : ∀ put ∈ puts, put.2.2.Encodable := fun put mem =>
      encodable put.2 (by rw [← listed]; exact List.mem_map_of_mem mem)
    by_cases empty : docs = []
    · have none : puts = [] := List.map_eq_nil_iff.1 (listed.trans empty)
      rw [empty, none, client.run_putMany_nil]
      rfl
    · rw [client.run_batch schema now empty encodable]
      split
      · rename_i cancelled
        exact (client.putEach_eq_self schema each (.inl cancelled)).symm
      · rename_i runs
        split
        · rename_i poisoned
          exact (client.putEach_eq_self schema each (.inr poisoned)).symm
        · rename_i sound
          rw [client.putEach_eq_foldl schema each (Bool.eq_false_iff.2 runs)
            (Bool.eq_false_iff.2 sound), listed]
  last succeeds location := by
    rw [client.run_batch_of_ok schema succeeds, Memory.get?_foldl_put, Whole.filter_writes,
      Whole.writes, List.getLast?_map, Option.map_map]
    rfl
  refused unencodable := by
    obtain ⟨front, location, doc, behind, obstacle, rfl, before, refused⟩ :=
      Whole.exists_first_obstacle unencodable
    exact ⟨front, location, doc, behind, obstacle, rfl, before, refused,
      client.run_batch_refused schema now before location refused⟩
  others key untouched := by
    have leaves := Operation.leaves_run client now (.putMany schema.name docs) memory
    refine leaves.frame key fun asked => ?_
    obtain ⟨entry, mem, keyed⟩ := List.mem_flatMap.1 asked
    dsimp only at keyed
    rw [Operation.keysAt_of_ok (documentKey_name schema entry.1), List.mem_singleton] at keyed
    exact untouched entry mem keyed.symm

end Folio
