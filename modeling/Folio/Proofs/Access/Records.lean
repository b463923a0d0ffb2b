import Folio.Proofs.Access.History
import Folio.Proofs.Document.Blob
import Folio.Proofs.Location

/-!
# Whole documents are a map

Storing, reading and removing whole documents is reading and writing a map from
schema names and locations to documents with deadlines.  The store holds the blob
of a document under its key; keys tell schema and location, and blobs read as
their documents, so nothing else that happens under other keys is seen.
-/

namespace Folio

/-- A document and when it ceases to be there. -/
structure Record where
  doc : Document
  deadline : Option Nat

def Record.isCurrent (now : Nat) (record : Record) : Bool :=
  match record.deadline with
  | none => true
  | some deadline => now < deadline

/-- What was stored last at each location of each schema. -/
abbrev Records := String → Location → Option Record

namespace Records

def empty : Records := fun _ _ => none

/-- Set or clear what is stored at a location, and nothing else. -/
def set (records : Records) (schema : String) (location : Location) (record : Option Record) :
    Records :=
  fun name place => if name = schema ∧ place = location then record else records name place

/-- Store several documents in order; they do not expire. -/
def setMany (records : Records) (schema : String) (docs : List (Location × Document)) : Records :=
  docs.foldl (fun records (location, doc) => records.set schema location (some ⟨doc, none⟩)) records

def current (records : Records) (now : Nat) (schema : String) (location : Location) :
    Option Record :=
  (records schema location).filter (Record.isCurrent now)

/-- The document that is read at a location; nothing there reads as the empty document. -/
def document (records : Records) (now : Nat) (schema : String) (location : Location) : Document :=
  match records.current now schema location with
  | none => .empty
  | some record => record.doc

@[simp] theorem set_same (records : Records) (schema : String) (location : Location)
    (record : Option Record) : records.set schema location record schema location = record :=
  if_pos ⟨rfl, rfl⟩

theorem set_of_ne {schema name : String} {location place : Location}
    (ne : ¬(name = schema ∧ place = location)) (records : Records) (record : Option Record) :
    records.set schema location record name place = records name place :=
  if_neg ne

end Records

/-- What the map becomes by a step; operations of cancelled clients change nothing. -/
def Step.records (step : Step) (records : Records) : Records :=
  if step.client.isCancelled then records
  else
    match step.operation with
    | .put schema location doc ttl =>
        records.set schema location (some ⟨doc, ttl.map (step.moment + ·.nanos)⟩)
    | .putMany schema docs => records.setMany schema docs
    | .delete schema location => records.set schema location none
    | _ => records

def History.records : History → Records
  | [] => .empty
  | step :: earlier => step.records (records earlier)

def Operation.isWhole : Operation → Bool
  | put _ _ _ _ | putMany _ _ | get _ _ | delete _ _ | find _ _ => true
  | _ => false

def ValidName (name : String) : Prop := name ≠ "" ∧ delimiter ∉ name.toList

/-- Whether the arguments of an operation on whole documents are accepted. -/
def Operation.Accepted : Operation → Prop
  | put schema _ doc ttl => ValidName schema ∧ doc.Encodable ∧ ∀ d ∈ ttl, d.isZero = false
  | putMany schema docs => ValidName schema ∧ ∀ entry ∈ docs, entry.2.Encodable
  | get schema _ | delete schema _ => ValidName schema
  | _ => True

/-! ## Operations on whole documents -/

def Document.blob (doc : Document) : Bytes := Text.utf8 doc.display

namespace Whole

theorem encode_of_encodable {doc : Document} (encodable : doc.Encodable) :
    encode doc = .ok doc.blob := by
  rw [encode, Document.toBlob_of_encodable encodable]
  rfl

theorem decode_blob {doc : Document} (encodable : doc.Encodable) :
    decode (some doc.blob) = .ok doc := by
  rw [decode, Document.blob, Document.ofBlob_display encodable]
  rfl

theorem checkTtl_ok {ttl : Option Duration} (positive : ∀ d ∈ ttl, d.isZero = false) :
    checkTtl ttl = .ok () := by
  cases ttl with
  | none => rfl
  | some d => rw [checkTtl, positive d rfl]; rfl

theorem preparePut_ok (schema : Schema) (location : Location) {doc : Document}
    (encodable : doc.Encodable) {ttl : Option Duration} (positive : ∀ d ∈ ttl, d.isZero = false) :
    preparePut schema.name location doc ttl = .ok (schema.key location, doc.blob) := by
  rw [preparePut, checkTtl_ok positive]
  exact entry_eq_ok_iff.2 ⟨documentKey_name schema location, encode_of_encodable encodable⟩

def writes (schema : Schema) (docs : List (Location × Document)) : List (String × Bytes) :=
  docs.map fun (location, doc) => (schema.key location, doc.blob)

theorem preparePutMany_ok (schema : Schema) {docs : List (Location × Document)}
    (encodable : ∀ entry ∈ docs, entry.2.Encodable) :
    preparePutMany schema.name docs = .ok (writes schema docs) := by
  have written : entries schema.name docs = .ok (writes schema docs) := by
    induction docs with
    | nil => rfl
    | cons first rest ih =>
        have others := ih fun entry mem => encodable entry (List.mem_cons_of_mem first mem)
        refine entries_cons_eq_ok_iff.2 ⟨(schema.key first.1, first.2.blob), _, ?_, others, rfl⟩
        exact entry_eq_ok_iff.2 ⟨documentKey_name schema first.1,
          encode_of_encodable (encodable first List.mem_cons_self)⟩
  rw [preparePutMany, checkSchema_eq_ok_iff.2 rfl]
  exact written

end Whole

namespace Client

variable (client : Client) (now : Nat) (schema : Schema) (location : Location) (memory : Memory)

theorem run_put {doc : Document} (encodable : doc.Encodable) {ttl : Option Duration}
    (positive : ∀ d ∈ ttl, d.isZero = false) :
    client.run now (.put schema.name location doc ttl) memory =
      if client.isCancelled then (.error .cancelled, memory)
      else memory.perform now (.set (schema.key location) doc.blob ttl) := by
  rw [run_put_eq, Whole.preparePut_ok schema location encodable positive]

theorem run_putMany {docs : List (Location × Document)} (nonempty : docs ≠ [])
    (encodable : ∀ entry ∈ docs, entry.2.Encodable) :
    client.run now (.putMany schema.name docs) memory =
      if client.isCancelled then (.error .cancelled, memory)
      else memory.perform now (.setMany (Whole.writes schema docs)) := by
  have some : (Whole.writes schema docs).isEmpty = false := by
    cases docs with
    | nil => exact absurd rfl nonempty
    | cons first rest => rfl
  unfold run
  dsimp only [Operation.act, Whole.putMany, Action.checked]
  rw [Whole.preparePutMany_ok schema encodable]
  dsimp only
  rw [some, if_neg Bool.false_ne_true]
  exact client.store_retried now _ memory

theorem run_putMany_nil :
    client.run now (.putMany schema.name []) memory = (.ok (), memory) := by
  unfold run
  dsimp only [Operation.act, Whole.putMany, Action.checked]
  rw [Whole.preparePutMany_ok schema (fun _ mem => absurd mem List.not_mem_nil)]
  rfl

theorem run_get :
    client.run now (.get schema.name location) memory =
      if client.isCancelled then (.error .cancelled, memory)
      else ((memory.perform now (.get (schema.key location))).1.bind Whole.decode,
        (memory.perform now (.get (schema.key location))).2) := by
  unfold run
  dsimp only [Operation.act, Whole.get, Action.checked]
  rw [documentKey_name]
  exact client.store_reading now (.get (schema.key location)) Whole.decode memory

theorem run_delete :
    client.run now (.delete schema.name location) memory =
      if client.isCancelled then (.error .cancelled, memory)
      else memory.perform now (.delete (schema.key location)) := by
  unfold run
  dsimp only [Operation.act, Whole.delete, Action.checked]
  rw [documentKey_name]
  exact client.store_retried now _ memory

end Client

/-! ## The entry of a record -/

/-- The entry that a record is stored as. -/
def Record.entry (record : Record) : Entry := ⟨.bytes record.doc.blob, record.deadline⟩

namespace Memory

/-- Whether the entry under a key is a record, of a document that has a blob. -/
structure Stores (memory : Memory) (key : String) (record : Option Record) : Prop where
  entry : memory.entries.get? key = record.map Record.entry
  encodable : ∀ r ∈ record, r.doc.Encodable

variable {memory : Memory} {key other : String} {record : Option Record}

theorem Stores.frame (stores : memory.Stores key record) {after : Memory}
    (same : after.entries.get? key = memory.entries.get? key) : after.Stores key record :=
  ⟨same.trans stores.entry, stores.encodable⟩

theorem stores_put (memory : Memory) (key : String) (record : Record)
    (encodable : record.doc.Encodable) : (memory.put key record.entry).Stores key (some record) := by
  refine ⟨?_, ?_⟩
  · rw [get?_put, if_pos rfl, Option.map_some]
  · rintro r ⟨⟩
    exact encodable

theorem Stores.put_of_ne (stores : memory.Stores key record) (ne : other ≠ key) (entry : Entry) :
    (memory.put other entry).Stores key record :=
  stores.frame (by rw [get?_put, if_neg ne])

theorem stores_drop (memory : Memory) (key : String) : (memory.drop key).Stores key none := by
  refine ⟨?_, ?_⟩
  · rw [get?_drop, if_pos rfl, Option.map_none]
  · rintro r ⟨⟩

theorem Stores.drop_of_ne (stores : memory.Stores key record) (ne : other ≠ key) :
    (memory.drop other).Stores key record :=
  stores.frame (by rw [get?_drop, if_neg ne])

/-- The entry that still counts is the record that is still there. -/
theorem Stores.live? (stores : memory.Stores key record) (now : Nat) :
    memory.live? now key = (record.filter (Record.isCurrent now)).map Record.entry := by
  rw [Memory.live?, stores.entry]
  cases record with
  | none => rfl
  | some record =>
      have current : record.entry.isLive now = record.isCurrent now := rfl
      rw [Option.map_some, Option.filter_some, Option.filter_some, current]
      split <;> rfl

/-! ## Calls on whole documents -/

variable {now : Nat}

theorem perform_get (sound : memory.poisoned = false) (stores : memory.Stores key record) :
    memory.perform now (.get key) =
      (.ok ((record.filter (Record.isCurrent now)).map fun r => r.doc.blob), memory) := by
  rw [perform_of_sound sound, performSound, stores.live? now]
  cases record.filter (Record.isCurrent now) <;> rfl

theorem perform_delete (sound : memory.poisoned = false) (stores : memory.Stores key record) :
    memory.perform now (.delete key) =
      (.ok (record.filter (Record.isCurrent now)).isSome, memory.drop key) := by
  rw [perform_of_sound sound, performSound, stores.live? now, Option.isSome_map]

end Memory

/-! ## One step -/

section Step

variable {schema : Schema} {location : Location} {memory : Memory} {records : Records}

/-- A location of a schema is the one that its key is for. -/
theorem key_eq_key_iff {other : Schema} {place : Location} :
    other.key place = schema.key location ↔ schema.name = other.name ∧ location = place := by
  constructor
  · intro same
    obtain ⟨rfl, rfl⟩ := Schema.key_inj same
    exact ⟨rfl, rfl⟩
  · rintro ⟨named, rfl⟩
    rw [Schema.ext named]

/-- The key of a location is asked for at that location only. -/
theorem mem_keysAt_iff {name : String} {place : Location} :
    schema.key location ∈ Operation.keysAt name place ↔ schema.name = name ∧ location = place := by
  constructor
  · intro asked
    unfold Operation.keysAt at asked
    split at asked
    · rename_i key ok
      obtain ⟨other, rfl, rfl⟩ := documentKey_eq_ok_iff.1 ok
      exact key_eq_key_iff.1 (List.mem_singleton.1 asked).symm
    · cases asked
  · rintro ⟨rfl, rfl⟩
    rw [Operation.keysAt_of_ok (documentKey_name schema location)]
    exact List.mem_singleton_self _

/-- Writing a record under the key of its location is setting it in the map. -/
theorem stores_set (stores : memory.Stores (schema.key location) (records schema.name location))
    (other : Schema) (place : Location) (record : Record) (encodable : record.doc.Encodable) :
    (memory.put (other.key place) record.entry).Stores (schema.key location)
      (records.set other.name place (some record) schema.name location) := by
  by_cases same : schema.name = other.name ∧ location = place
  · rw [Records.set, if_pos same, key_eq_key_iff.2 same]
    exact Memory.stores_put memory (schema.key location) record encodable
  · rw [Records.set_of_ne same]
    exact stores.put_of_ne (fun eq => same (key_eq_key_iff.1 eq)) record.entry

theorem stores_clear (stores : memory.Stores (schema.key location) (records schema.name location))
    (other : Schema) (place : Location) :
    (memory.drop (other.key place)).Stores (schema.key location)
      (records.set other.name place none schema.name location) := by
  by_cases same : schema.name = other.name ∧ location = place
  · rw [Records.set, if_pos same, key_eq_key_iff.2 same]
    exact Memory.stores_drop memory (schema.key location)
  · rw [Records.set_of_ne same]
    exact stores.drop_of_ne fun eq => same (key_eq_key_iff.1 eq)

/-- The writes of a batch are made in order, so the last one at a location stays. -/
theorem stores_setMany (other : Schema) {docs : List (Location × Document)}
    (encodable : ∀ entry ∈ docs, entry.2.Encodable)
    (stores : memory.Stores (schema.key location) (records schema.name location)) :
    ((Whole.writes other docs).foldl
        (fun memory entry => memory.put entry.1 ⟨.bytes entry.2, none⟩) memory).Stores
      (schema.key location) (records.setMany other.name docs schema.name location) := by
  induction docs generalizing memory records with
  | nil => exact stores
  | cons first rest ih =>
      obtain ⟨place, doc⟩ := first
      have here := encodable (place, doc) List.mem_cons_self
      have first := stores_set stores other place ⟨doc, none⟩ here
      exact ih (fun entry mem => encodable entry (List.mem_cons_of_mem _ mem)) first

/-- An operation of a client that is cancelled changes neither the store nor the map. -/
theorem stores_unless_cancelled {α : Type} {key : String} {after : Records}
    {kept done : Except Failure α × Memory}
    (before : kept.2.Stores key (records schema.name location))
    (behind : done.2.Stores key (after schema.name location)) (cancelled : Bool) :
    (if cancelled then kept else done).2.Stores key
      ((if cancelled then records else after) schema.name location) := by
  cases cancelled with
  | true => exact before
  | false => exact behind

/-- One step keeps the entry under the key of a location the record that the map has there. -/
theorem stores_step (step : Step) (accepted : step.operation.Accepted)
    (onClock : Memory.OnClock step.moment step.operation.ttl?)
    (apart : step.operation.isWhole = false → schema.key location ∉ step.operation.keys)
    (sound : memory.poisoned = false)
    (stores : memory.Stores (schema.key location) (records schema.name location)) :
    (step.run memory).2.Stores (schema.key location)
      (step.records records schema.name location) := by
  have untouched (absent : schema.key location ∉ step.operation.keys) :
      (step.run memory).2.Stores (schema.key location) (records schema.name location) :=
    stores.frame ((step.leaves_run memory).frame _ absent)
  obtain ⟨now, client, operation⟩ := step
  unfold Step.records
  cases operation with
  | put name place doc ttl =>
      obtain ⟨⟨nonempty, noColon⟩, encodable, positive⟩ := accepted
      have onClock : Memory.OnClock now ttl := onClock
      have run := client.run_put now ⟨name, nonempty, noColon⟩ place memory encodable positive
      rw [Step.run, run]
      refine stores_unless_cancelled stores ?_ client.isCancelled
      rw [Memory.perform_set sound _ _ onClock]
      exact stores_set stores ⟨name, nonempty, noColon⟩ place ⟨doc, _⟩ encodable
  | putMany name docs =>
      obtain ⟨⟨nonempty, noColon⟩, encodable⟩ := accepted
      by_cases none : docs = []
      · subst none
        have run := client.run_putMany_nil now ⟨name, nonempty, noColon⟩ memory
        rw [Step.run, run]
        dsimp only
        split <;> exact stores
      · have run := client.run_putMany now ⟨name, nonempty, noColon⟩ memory none encodable
        rw [Step.run, run]
        refine stores_unless_cancelled stores ?_ client.isCancelled
        rw [Memory.perform_of_sound sound]
        exact stores_setMany ⟨name, nonempty, noColon⟩ encodable stores
  | get name place =>
      obtain ⟨nonempty, noColon⟩ := accepted
      have run := client.run_get now ⟨name, nonempty, noColon⟩ place memory
      rw [Step.run, run]
      refine stores_unless_cancelled stores ?_ client.isCancelled
      rw [Memory.store_perform_get]
      exact stores
  | delete name place =>
      obtain ⟨nonempty, noColon⟩ := accepted
      have run := client.run_delete now ⟨name, nonempty, noColon⟩ place memory
      rw [Step.run, run]
      refine stores_unless_cancelled stores ?_ client.isCancelled
      rw [Memory.perform_of_sound sound]
      exact stores_clear stores ⟨name, nonempty, noColon⟩ place
  | find name pattern =>
      dsimp only
      rw [ite_self]
      exact untouched List.not_mem_nil
  | _ =>
      dsimp only
      rw [ite_self]
      exact untouched (apart rfl)

end Step

/-! ## Histories -/

/-- Behind every history, the store holds what the map has at a location. -/
theorem stores_after {history : History} (onClock : history.OnClock)
    (accepted : ∀ step ∈ history, step.operation.Accepted) {schema : Schema} {location : Location}
    (apart : ∀ step ∈ history, step.operation.isWhole = false →
      schema.key location ∉ step.operation.keys) :
    (History.after history).Stores (schema.key location)
      (History.records history schema.name location) := by
  induction history with
  | nil =>
      refine ⟨rfl, ?_⟩
      rintro r ⟨⟩
  | cons step earlier ih =>
      have onClockBefore : History.OnClock earlier := fun other mem =>
        onClock other (List.mem_cons_of_mem step mem)
      have stores := ih onClockBefore (fun other mem => accepted other (List.mem_cons_of_mem step mem))
        fun other mem => apart other (List.mem_cons_of_mem step mem)
      exact stores_step step (accepted step List.mem_cons_self) (onClock step List.mem_cons_self)
        (apart step List.mem_cons_self) (History.poisoned_after onClockBefore) stores

/-! ## What the map holds -/

/-- In a batch, the last document of a location counts, and other locations keep what they have. -/
theorem Records.setMany_same (records : Records) (name : String) (docs : List (Location × Document))
    (location : Location) :
    records.setMany name docs name location =
      ((docs.filter fun entry => entry.1 = location).getLast?.map fun entry =>
        (⟨entry.2, none⟩ : Record)).or (records name location) := by
  induction docs generalizing records with
  | nil => rfl
  | cons first rest ih =>
      obtain ⟨place, doc⟩ := first
      have tail := ih (records.set name place (some ⟨doc, none⟩))
      rw [setMany] at tail ⊢
      rw [List.foldl_cons, tail]
      by_cases same : place = location
      · subst same
        rw [set_same, List.filter_cons_of_pos (by simp), List.getLast?_cons]
        cases (rest.filter fun entry => entry.1 = place).getLast? <;> rfl
      · have other : ¬(name = name ∧ location = place) := fun both => same both.2.symm
        rw [set_of_ne other, List.filter_cons_of_neg (by simpa using same)]

theorem Records.setMany_of_ne {name other : String} (ne : other ≠ name) (records : Records)
    (docs : List (Location × Document)) (location : Location) :
    records.setMany name docs other location = records other location := by
  induction docs generalizing records with
  | nil => rfl
  | cons first rest ih =>
      have tail := ih (records.set name first.1 (some ⟨first.2, none⟩))
      rw [set_of_ne fun both => ne both.1] at tail
      exact tail

/-- A step that does not ask for the key of a location leaves what the map has there. -/
theorem records_of_not_mem {schema : Schema} {location : Location} {step : Step}
    (untouched : schema.key location ∉ step.operation.keys) (records : Records) :
    step.records records schema.name location = records schema.name location := by
  obtain ⟨now, client, operation⟩ := step
  unfold Step.records
  dsimp only
  split
  · rfl
  · cases operation with
    | put name place doc ttl => exact Records.set_of_ne (mt mem_keysAt_iff.2 untouched) records _
    | delete name place => exact Records.set_of_ne (mt mem_keysAt_iff.2 untouched) records _
    | putMany name docs =>
        by_cases named : schema.name = name
        · subst named
          have absent : docs.filter (fun entry => entry.1 = location) = [] := by
            rw [List.filter_eq_nil_iff]
            intro entry mem same
            have place := of_decide_eq_true same
            have asked : schema.key location ∈ Operation.keysAt schema.name entry.1 :=
              mem_keysAt_iff.2 ⟨rfl, place.symm⟩
            exact untouched (List.mem_flatMap.2 ⟨entry, mem, asked⟩)
          dsimp only
          rw [Records.setMany_same, absent]
          rfl
        · exact Records.setMany_of_ne named records docs location
    | _ => rfl

/-- What clients can rely on about the document at a location behind a history. -/
structure ActsAsMap (history : History) (schema : Schema) (location : Location) : Prop where
  /-- Reading answers the document that is still there, and else the empty one. -/
  get : ∀ (client : Client) (now : Nat),
    (client.run now (.get schema.name location) (History.after history)).1 =
      if client.isCancelled then .error .cancelled
      else .ok ((History.records history).document now schema.name location)
  /-- Removing answers whether a document is still there. -/
  delete : ∀ (client : Client) (now : Nat),
    (client.run now (.delete schema.name location) (History.after history)).1 =
      if client.isCancelled then .error .cancelled
      else .ok ((History.records history).current now schema.name location).isSome
  /-- A document that is put takes the place of what was there, its deadline included. -/
  put : ∀ (client : Client) (now : Nat) (doc : Document) (ttl : Option Duration),
    client.isCancelled = false →
      History.records (⟨now, client, .put schema.name location doc ttl⟩ :: history) schema.name
        location = some ⟨doc, ttl.map (now + ·.nanos)⟩
  /-- Of a batch, the last document of the location does so, and it does not expire. -/
  putMany : ∀ (client : Client) (now : Nat) (docs : List (Location × Document)),
    client.isCancelled = false →
      History.records (⟨now, client, .putMany schema.name docs⟩ :: history) schema.name location =
        ((docs.filter fun entry => entry.1 = location).getLast?.map fun entry =>
          (⟨entry.2, none⟩ : Record)).or (History.records history schema.name location)
  /-- Nothing is there once a document has been removed. -/
  removed : ∀ (client : Client) (now : Nat), client.isCancelled = false →
    History.records (⟨now, client, .delete schema.name location⟩ :: history) schema.name location =
      none
  /-- Nothing else changes what is there. -/
  others : ∀ step : Step, schema.key location ∉ step.operation.keys →
    History.records (step :: history) schema.name location =
      History.records history schema.name location

/-- Reading and removing are answered from the record that the store holds. -/
theorem answers_of_stores {memory : Memory} {schema : Schema} {location : Location}
    {record : Option Record} (sound : memory.poisoned = false)
    (stores : memory.Stores (schema.key location) record) (client : Client) (now : Nat) :
    (client.run now (.get schema.name location) memory).1 =
        (if client.isCancelled then .error .cancelled
        else .ok (match record.filter (Record.isCurrent now) with
          | none => .empty
          | some record => record.doc)) ∧
      (client.run now (.delete schema.name location) memory).1 =
        (if client.isCancelled then .error .cancelled
        else .ok (record.filter (Record.isCurrent now)).isSome) := by
  rw [Client.run_get, Client.run_delete]
  cases client.isCancelled with
  | true => exact ⟨rfl, rfl⟩
  | false =>
      rw [if_neg Bool.false_ne_true, if_neg Bool.false_ne_true, if_neg Bool.false_ne_true,
        if_neg Bool.false_ne_true, Memory.perform_get sound stores, Memory.perform_delete sound stores]
      refine ⟨?_, rfl⟩
      cases found : record.filter (Record.isCurrent now) with
      | none => rfl
      | some record =>
          have held := Option.eq_some_of_filter_eq_some found
          have decoded := Whole.decode_blob (stores.encodable record held)
          rw [Option.map_some, Except.bind, decoded]

/--
Whole documents are a map.  After any operations of any clients, of which those by field and those
on locks leave the key of a location alone, the location is answered for as the map tells.
-/
theorem whole_documents_act_as_map {history : History} (onClock : history.OnClock)
    (accepted : ∀ step ∈ history, step.operation.Accepted) (schema : Schema) (location : Location)
    (apart : ∀ step ∈ history, step.operation.isWhole = false →
      schema.key location ∉ step.operation.keys) :
    ActsAsMap history schema location := by
  have sound := History.poisoned_after onClock
  have stores := stores_after onClock accepted apart
  constructor
  case get => exact fun client now => (answers_of_stores sound stores client now).1
  case delete => exact fun client now => (answers_of_stores sound stores client now).2
  case put =>
    intro client now doc ttl runs
    rw [History.records, Step.records, runs]
    exact Records.set_same _ _ _ _
  case putMany =>
    intro client now docs runs
    rw [History.records, Step.records, runs]
    exact Records.setMany_same _ _ _ _
  case removed =>
    intro client now runs
    rw [History.records, Step.records, runs]
    exact Records.set_same _ _ _ _
  case others => exact fun step untouched => records_of_not_mem untouched (History.records history)

/-- A document that was put is read until its deadline, whoever holds a lock meanwhile. -/
theorem whole_documents_act_as_map_example :
    let client : Client := ⟨.usual, none, 0, .exact⟩
    let place : Location := ⟨["a"], by decide, by decide⟩
    let doc : Document := Document.empty.set "n" (.integer 3)
    let history : History :=
      [⟨4, client, .acquire "build" "alice" ⟨9, by decide⟩⟩,
        ⟨1, client, .put "notes" place doc (some ⟨5, by decide⟩)⟩]
    (client.run 5 (.get "notes" place) (History.after history)).1 = .ok doc ∧
      (client.run 6 (.get "notes" place) (History.after history)).1 = .ok .empty := by
  intro client place doc history
  have encodable : doc.Encodable := by
    intro value mem
    obtain rfl := List.mem_singleton.1 mem
    decide
  have onClock : history.OnClock := by
    simp [history, History.OnClock, Memory.OnClock, Operation.ttl?, Memory.horizon, nanosPerSecond]
  have accepted : ∀ step ∈ history, step.operation.Accepted := by
    intro step mem
    rcases List.mem_pair.1 mem with rfl | rfl
    · exact trivial
    · exact ⟨⟨by decide, by decide⟩, encodable, by rintro d ⟨⟩; rfl⟩
  have apart : ∀ step ∈ history, step.operation.isWhole = false →
      (⟨"notes", by decide, by decide⟩ : Schema).key place ∉ step.operation.keys := by
    intro step mem foreign
    rcases List.mem_pair.1 mem with rfl | rfl
    · decide
    · cases foreign
  have map := whole_documents_act_as_map onClock accepted ⟨"notes", by decide, by decide⟩ place apart
  exact ⟨map.get client 5, map.get client 6⟩

end Folio
