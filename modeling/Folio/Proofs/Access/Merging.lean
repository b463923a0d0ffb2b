import Folio.Proofs.Access.Records
import Folio.Proofs.Document.Merge

/-!
# Documents by field are a merging map

Storing, reading and removing documents by field is working on a map from schema
names and locations to documents with deadlines, in which a document that is put is
merged into the one that is still there.  The store holds the field table of the
merged document under its key.
-/

namespace Folio

/-- A document merged into what is still there; without a time to live the deadline stays. -/
def Record.merged (current : Option Record) (now : Nat) (doc : Document) (ttl : Option Duration) :
    Record :=
  match current with
  | none => ⟨doc, ttl.map (now + ·.nanos)⟩
  | some held => ⟨held.doc.merge doc, (ttl.map (now + ·.nanos)).or held.deadline⟩

/-- The document that is read, given what is still there. -/
def Record.read (current : Option Record) : Document :=
  match current with
  | none => .empty
  | some held => held.doc

/-- What the map becomes by a step; operations of cancelled clients change nothing. -/
def Step.merged (step : Step) (records : Records) : Records :=
  if step.client.isCancelled then records
  else
    match step.operation with
    | .putFields schema location doc ttl =>
        if doc.isEmpty then records
        else
          let current := records.current step.moment schema location
          records.set schema location (some (Record.merged current step.moment doc ttl))
    | .deleteFields schema location => records.set schema location none
    | _ => records

def History.merged : History → Records
  | [] => .empty
  | step :: earlier => step.merged (merged earlier)

def Operation.isByField : Operation → Bool
  | putFields _ _ _ _ | getAllFields _ _ | getFields _ _ _ | getField _ _ _ | deleteFields _ _ => true
  | _ => false

/-- Whether the document and the time to live that an operation puts by field are accepted. -/
def Operation.FieldsAccepted : Operation → Prop
  | putFields _ _ doc ttl => doc.Encodable ∧ ∀ d ∈ ttl, d.isZero = false
  | _ => True

/-! ## Operations by field -/

namespace ByField

theorem preparePut_ok (schema : Schema) (location : Location) {doc : Document}
    {table : List (String × String)} (written : doc.toFieldTable = .ok table)
    {ttl : Option Duration} (positive : ∀ d ∈ ttl, d.isZero = false) :
    preparePut schema.name location doc ttl = .ok (schema.key location, table) := by
  rw [preparePut, Whole.checkTtl_ok positive, documentKey_name, written]
  rfl

/-- The names that texts are found for, with their texts. -/
theorem foundFields_map (look : String → Option String) (names : List String) :
    foundFields names (names.map look) =
      names.filterMap fun name => (look name).map (name, ·) := by
  induction names with
  | nil => rfl
  | cons name rest ih =>
      rw [List.map_cons, List.filterMap_cons]
      cases look name with
      | none => exact ih
      | some text => exact congrArg ((name, text) :: ·) ih

end ByField

namespace Client

variable (client : Client) (now : Nat) (schema : Schema) (location : Location) (memory : Memory)

theorem run_putFields {doc : Document} {table : List (String × String)}
    (written : doc.toFieldTable = .ok table) (some : doc.isEmpty = false) {ttl : Option Duration}
    (positive : ∀ d ∈ ttl, d.isZero = false) :
    client.run now (.putFields schema.name location doc ttl) memory =
      if client.isCancelled then (.error .cancelled, memory)
      else memory.perform now (.hashSet (schema.key location) table ttl) := by
  rw [run_putFields_eq, ByField.preparePut_ok schema location written positive]
  dsimp only
  rw [Document.isEmpty_table written, some, if_neg Bool.false_ne_true]

theorem run_putFields_empty {doc : Document} {table : List (String × String)}
    (written : doc.toFieldTable = .ok table) (none : doc.isEmpty = true) {ttl : Option Duration}
    (positive : ∀ d ∈ ttl, d.isZero = false) :
    client.run now (.putFields schema.name location doc ttl) memory = (.ok (), memory) := by
  rw [run_putFields_eq, ByField.preparePut_ok schema location written positive]
  dsimp only
  rw [Document.isEmpty_table written, none, if_pos rfl]

theorem run_getAllFields (sound : memory.poisoned = false) :
    client.run now (.getAllFields schema.name location) memory =
      (if client.isCancelled then .error .cancelled
        else (memory.readHash now (schema.key location) (·.entries)).bind
          fun entries => .ok (Document.ofFieldTable entries), memory) := by
  have read := client.store_reading now (.hashGetAll (schema.key location))
    (fun entries => .ok (Document.ofFieldTable entries)) memory
  rw [Memory.perform_of_sound sound] at read
  unfold run
  dsimp only [Operation.act, ByField.get, Action.checked]
  rw [documentKey_name]
  refine read.trans ?_
  split <;> rfl

theorem run_getFields (sound : memory.poisoned = false) (names : List String) :
    client.run now (.getFields schema.name location names) memory =
      (if client.isCancelled then .error .cancelled
        else (memory.readHash now (schema.key location) fun hash => names.map hash.get?).bind
          fun texts => .ok (Document.ofFieldTable (ByField.foundFields names texts)), memory) := by
  have read := client.store_reading now (.hashGetMany (schema.key location) names)
    (fun texts => .ok (Document.ofFieldTable (ByField.foundFields names texts))) memory
  rw [Memory.perform_of_sound sound] at read
  unfold run
  dsimp only [Operation.act, ByField.getFields, Action.checked]
  rw [documentKey_name]
  refine read.trans ?_
  split <;> rfl

theorem run_getField (sound : memory.poisoned = false) (field : String) :
    client.run now (.getField schema.name location field) memory =
      (if client.isCancelled then .error .cancelled
        else memory.readHash now (schema.key location) (·.get? field), memory) := by
  have read := client.store_retried now (.hashGet (schema.key location) field) memory
  rw [Memory.perform_of_sound sound] at read
  unfold run
  dsimp only [Operation.act, ByField.getField, Action.checked]
  rw [documentKey_name]
  refine read.trans ?_
  split <;> rfl

theorem run_deleteFields :
    client.run now (.deleteFields schema.name location) memory =
      if client.isCancelled then (.error .cancelled, memory)
      else memory.perform now (.delete (schema.key location)) := by
  unfold run
  dsimp only [Operation.act, ByField.delete, Action.checked]
  rw [documentKey_name]
  exact client.store_retried now _ memory

end Client

/-! ## The hash of a record -/

/-- Whether an entry is the field table of a record, with its deadline. -/
def Record.IsHash (record : Record) (entry : Entry) : Prop :=
  ∃ hash : SortedMap String,
    entry = ⟨.hash hash, record.deadline⟩ ∧ record.doc.toFieldTable = .ok hash.entries

namespace Memory

/-- Whether the entry under a key is the hash of a record. -/
def HoldsFields (memory : Memory) (key : String) (record : Option Record) : Prop :=
  Option.Rel Record.IsHash record (memory.entries.get? key)

variable {memory : Memory} {key other : String} {record : Option Record} {now : Nat}

theorem HoldsFields.frame (holds : memory.HoldsFields key record) {after : Memory}
    (same : after.entries.get? key = memory.entries.get? key) : after.HoldsFields key record := by
  rw [HoldsFields, same]
  exact holds

/-- The entry that still counts is the hash of the record that is still there. -/
theorem HoldsFields.current (holds : memory.HoldsFields key record) (now : Nat) :
    (record.filter (Record.isCurrent now) = none ∧ memory.live? now key = none) ∨
      ∃ (held : Record) (hash : SortedMap String),
        record.filter (Record.isCurrent now) = some held ∧
          memory.live? now key = some ⟨.hash hash, held.deadline⟩ ∧
            held.doc.toFieldTable = .ok hash.entries := by
  rw [HoldsFields] at holds
  rw [live?]
  cases found : memory.entries.get? key with
  | none =>
      rw [found] at holds
      cases holds
      exact Or.inl ⟨rfl, rfl⟩
  | some entry =>
      rw [found] at holds
      cases holds with
      | @some record _ isHash =>
          obtain ⟨hash, rfl, written⟩ := isHash
          have live : Entry.isLive now ⟨.hash hash, record.deadline⟩ = record.isCurrent now := rfl
          rw [Option.filter_some, Option.filter_some, live]
          split
          · exact Or.inr ⟨record, hash, rfl, rfl, written⟩
          · exact Or.inl ⟨rfl, rfl⟩

theorem HoldsFields.isSome_live? (holds : memory.HoldsFields key record) (now : Nat) :
    (memory.live? now key).isSome = (record.filter (Record.isCurrent now)).isSome := by
  obtain ⟨current, entry⟩ | ⟨held, hash, current, entry, -⟩ := holds.current now
  · rw [current, entry]
    rfl
  · rw [current, entry]
    rfl

theorem holdsFields_put (memory : Memory) (key : String) {record : Record}
    {hash : SortedMap String} (written : record.doc.toFieldTable = .ok hash.entries) :
    (memory.put key ⟨.hash hash, record.deadline⟩).HoldsFields key (some record) := by
  rw [HoldsFields, get?_put, if_pos rfl]
  exact .some ⟨hash, rfl, written⟩

theorem holdsFields_drop (memory : Memory) (key : String) :
    (memory.drop key).HoldsFields key none := by
  rw [HoldsFields, get?_drop, if_pos rfl]
  exact .none

/-! ## Calls on hashes -/

/-- Putting a document merges its table into the hash that is still there. -/
theorem HoldsFields.perform_hashSet (holds : memory.HoldsFields key record)
    (sound : memory.poisoned = false) {doc : Document} {table : List (String × String)}
    (written : doc.toFieldTable = .ok table) {ttl : Option Duration} (onClock : OnClock now ttl) :
    ∃ after : Memory, memory.perform now (.hashSet key table ttl) = (.ok (), after) ∧
      after.HoldsFields key
        (some (Record.merged (record.filter (Record.isCurrent now)) now doc ttl)) := by
  obtain ⟨current, entry⟩ | ⟨held, hash, current, entry, before⟩ := holds.current now
  · have base : memory.mergeBase? now key = some (.empty, none) := by rw [mergeBase?, entry]
    have merged := Document.toFieldTable_merge Document.toFieldTable_empty written
    rw [Document.empty_merge] at merged
    refine ⟨_, Memory.perform_hashSet sound base table onClock, ?_⟩
    rw [current, Option.or_none]
    exact holdsFields_put memory key merged
  · have base : memory.mergeBase? now key = some (hash, held.deadline) := by rw [mergeBase?, entry]
    refine ⟨_, Memory.perform_hashSet sound base table onClock, ?_⟩
    rw [current]
    exact holdsFields_put memory key (Document.toFieldTable_merge before written)

/-- Reading looks at the table of the document that is still there. -/
theorem HoldsFields.readHash (holds : memory.HoldsFields key record) (now : Nat) :
    ∃ hash : SortedMap String,
      (Record.read (record.filter (Record.isCurrent now))).toFieldTable = .ok hash.entries ∧
      ∀ (α : Type) (look : SortedMap String → α), memory.readHash now key look = .ok (look hash) := by
  obtain ⟨current, entry⟩ | ⟨held, hash, current, entry, written⟩ := holds.current now
  · refine ⟨.empty, ?_, fun α look => by rw [Memory.readHash, entry]⟩
    rw [current]
    exact Document.toFieldTable_empty
  · refine ⟨hash, ?_, fun α look => by rw [Memory.readHash, entry]⟩
    rw [current]
    exact written

end Memory

/-! ## One step -/

section Step

variable {schema : Schema} {location : Location} {memory : Memory} {records : Records}

/-- A step that does not ask for the key of a location leaves what the map has there. -/
theorem merged_of_not_mem {step : Step} (untouched : schema.key location ∉ step.operation.keys)
    (records : Records) : step.merged records schema.name location = records schema.name location := by
  obtain ⟨now, client, operation⟩ := step
  unfold Step.merged
  dsimp only
  split
  · rfl
  · cases operation with
    | putFields name place doc ttl =>
        dsimp only
        split
        · rfl
        · exact Records.set_of_ne (mt mem_keysAt_iff.2 untouched) records _
    | deleteFields name place => exact Records.set_of_ne (mt mem_keysAt_iff.2 untouched) records _
    | _ => rfl

/-- One step keeps the hash under the key of a location the record that the map has there. -/
theorem holdsFields_step (step : Step) (accepted : step.operation.FieldsAccepted)
    (onClock : Memory.OnClock step.moment step.operation.ttl?)
    (apart : step.operation.isByField = false → schema.key location ∉ step.operation.keys)
    (sound : memory.poisoned = false)
    (holds : memory.HoldsFields (schema.key location) (records schema.name location)) :
    (step.run memory).2.HoldsFields (schema.key location)
      (step.merged records schema.name location) := by
  by_cases asked : schema.key location ∈ step.operation.keys
  · obtain ⟨now, client, operation⟩ := step
    have byField : operation.isByField = true := by
      cases foreign : operation.isByField with
      | true => rfl
      | false => exact absurd asked (apart foreign)
    unfold Step.merged Step.run
    cases operation with
    | putFields name place doc ttl =>
        obtain ⟨rfl, rfl⟩ := mem_keysAt_iff.1 asked
        obtain ⟨encodable, positive⟩ := accepted
        obtain ⟨table, written⟩ := (Document.exists_toFieldTable_iff doc).2 encodable
        have onClock : Memory.OnClock now ttl := onClock
        dsimp only
        cases empty : doc.isEmpty with
        | true =>
            rw [client.run_putFields_empty now schema location memory written empty positive,
              if_pos rfl, ite_self]
            exact holds
        | false =>
            rw [client.run_putFields now schema location memory written empty positive]
            obtain ⟨after, performed, behind⟩ := holds.perform_hashSet sound written onClock
            cases client.isCancelled with
            | true => exact holds
            | false =>
                rw [if_neg Bool.false_ne_true, if_neg Bool.false_ne_true, if_neg Bool.false_ne_true,
                  performed, Records.set_same]
                exact behind
    | deleteFields name place =>
        obtain ⟨rfl, rfl⟩ := mem_keysAt_iff.1 asked
        dsimp only
        rw [client.run_deleteFields now schema location memory]
        cases client.isCancelled with
        | true => exact holds
        | false =>
            rw [if_neg Bool.false_ne_true, if_neg Bool.false_ne_true, Memory.perform_of_sound sound,
              Records.set_same]
            exact Memory.holdsFields_drop memory (schema.key location)
    | getAllFields name place =>
        obtain ⟨rfl, rfl⟩ := mem_keysAt_iff.1 asked
        dsimp only
        rw [client.run_getAllFields now schema location memory sound, ite_self]
        exact holds
    | getFields name place names =>
        obtain ⟨rfl, rfl⟩ := mem_keysAt_iff.1 asked
        dsimp only
        rw [client.run_getFields now schema location memory sound names, ite_self]
        exact holds
    | getField name place field =>
        obtain ⟨rfl, rfl⟩ := mem_keysAt_iff.1 asked
        dsimp only
        rw [client.run_getField now schema location memory sound field, ite_self]
        exact holds
    | _ => cases byField
  · rw [merged_of_not_mem asked]
    exact holds.frame ((step.leaves_run memory).frame _ asked)

end Step

/-! ## Histories -/

/-- Behind every history, the store holds what the map has at a location. -/
theorem holdsFields_after {history : History} (onClock : history.OnClock)
    (accepted : ∀ step ∈ history, step.operation.FieldsAccepted) {schema : Schema}
    {location : Location} (apart : ∀ step ∈ history, step.operation.isByField = false →
      schema.key location ∉ step.operation.keys) :
    (History.after history).HoldsFields (schema.key location)
      (History.merged history schema.name location) := by
  induction history with
  | nil => exact .none
  | cons step earlier ih =>
      have onClockBefore : History.OnClock earlier := fun other mem =>
        onClock other (List.mem_cons_of_mem step mem)
      have holds := ih onClockBefore
        (fun other mem => accepted other (List.mem_cons_of_mem step mem))
        fun other mem => apart other (List.mem_cons_of_mem step mem)
      exact holdsFields_step step (accepted step List.mem_cons_self)
        (onClock step List.mem_cons_self) (apart step List.mem_cons_self)
        (History.poisoned_after onClockBefore) holds

/-! ## What the map holds -/

theorem get?_merged (current : Option Record) (now : Nat) (doc : Document) (ttl : Option Duration)
    (field : String) : (Record.merged current now doc ttl).doc.get? field =
      (doc.get? field).or ((Record.read current).get? field) := by
  cases current with
  | none => exact (Option.or_none).symm
  | some held => exact Document.get?_merge held.doc doc field

theorem deadline_merged (current : Option Record) (now : Nat) (doc : Document)
    (ttl : Option Duration) : (Record.merged current now doc ttl).deadline =
      (ttl.map (now + ·.nanos)).or (current.bind (·.deadline)) := by
  cases current with
  | none => exact (Option.or_none).symm
  | some held => rfl

/-- What clients can rely on about the fields of the document at a location behind a history. -/
structure ActsAsMergingMap (history : History) (schema : Schema) (location : Location) : Prop where
  /-- Reading answers all fields that were put and are still there. -/
  getAll : ∀ (client : Client) (now : Nat),
    (client.run now (.getAllFields schema.name location) (History.after history)).1 =
      if client.isCancelled then .error .cancelled
      else .ok ((History.merged history).document now schema.name location)
  /-- Reading some fields answers those of them that are there. -/
  getSome : ∀ (client : Client) (now : Nat) (names : List String),
    (client.run now (.getFields schema.name location names) (History.after history)).1 =
      if client.isCancelled then .error .cancelled
      else .ok (((History.merged history).document now schema.name location).restrict names)
  /-- Reading one field answers its text in the field table of the document, if it is there. -/
  getOne : ∀ now : Nat, ∃ table : SortedMap String,
    ((History.merged history).document now schema.name location).toFieldTable =
        .ok table.entries ∧
      ∀ (client : Client) (field : String),
        (client.run now (.getField schema.name location field) (History.after history)).1 =
            (if client.isCancelled then .error .cancelled else .ok (table.get? field)) ∧
          (table.get? field).isSome =
            ((History.merged history).document now schema.name location).contains field
  /-- Removing answers whether a document is still there. -/
  delete : ∀ (client : Client) (now : Nat),
    (client.run now (.deleteFields schema.name location) (History.after history)).1 =
      if client.isCancelled then .error .cancelled
      else .ok ((History.merged history).current now schema.name location).isSome
  /--
  A document is put field by field on top of what is still there.  With a time to live the deadline
  of the whole moves; without one it stays, and there is none if nothing was there any more.
  -/
  put : ∀ (client : Client) (now : Nat) (doc : Document) (ttl : Option Duration),
    client.isCancelled = false → doc.isEmpty = false →
      ∃ record, History.merged (⟨now, client, .putFields schema.name location doc ttl⟩ :: history)
          schema.name location = some record ∧
        (∀ field, record.doc.get? field = (doc.get? field).or
          (((History.merged history).document now schema.name location).get? field)) ∧
        record.deadline = (ttl.map (now + ·.nanos)).or
          (((History.merged history).current now schema.name location).bind (·.deadline))
  /-- Putting a document is successful. -/
  putOk : ∀ (client : Client) (now : Nat) (doc : Document) (ttl : Option Duration),
    client.isCancelled = false → doc.Encodable → (∀ d ∈ ttl, d.isZero = false) →
      Memory.OnClock now ttl →
        (client.run now (.putFields schema.name location doc ttl) (History.after history)).1 = .ok ()
  /-- Putting the empty document changes nothing. -/
  putEmpty : ∀ (client : Client) (now : Nat) (doc : Document) (ttl : Option Duration),
    doc.isEmpty = true →
      History.merged (⟨now, client, .putFields schema.name location doc ttl⟩ :: history) =
        History.merged history
  /-- Nothing is there once a document has been removed. -/
  removed : ∀ (client : Client) (now : Nat), client.isCancelled = false →
    History.merged (⟨now, client, .deleteFields schema.name location⟩ :: history) schema.name
      location = none
  /-- Nothing else changes what is there. -/
  others : ∀ step : Step, schema.key location ∉ step.operation.keys →
    History.merged (step :: history) schema.name location =
      History.merged history schema.name location

/-- Reading is answered from the table of the record that the store holds. -/
theorem reads_of_holdsFields {memory : Memory} {schema : Schema} {location : Location}
    {record : Option Record} (sound : memory.poisoned = false)
    (holds : memory.HoldsFields (schema.key location) record) (now : Nat) :
    ∃ hash : SortedMap String,
      (Record.read (record.filter (Record.isCurrent now))).toFieldTable = .ok hash.entries ∧
      ∀ client : Client,
        (client.run now (.getAllFields schema.name location) memory).1 =
          (if client.isCancelled then .error .cancelled
          else .ok (Record.read (record.filter (Record.isCurrent now)))) ∧
        (∀ names, (client.run now (.getFields schema.name location names) memory).1 =
          if client.isCancelled then .error .cancelled
          else .ok ((Record.read (record.filter (Record.isCurrent now))).restrict names)) ∧
        ∀ field, (client.run now (.getField schema.name location field) memory).1 =
          if client.isCancelled then .error .cancelled else .ok (hash.get? field) := by
  obtain ⟨hash, written, looks⟩ := holds.readHash now
  refine ⟨hash, written, fun client => ⟨?_, fun names => ?_, fun field => ?_⟩⟩
  · rw [client.run_getAllFields now schema location memory sound, looks, Except.bind,
      Document.ofFieldTable_toFieldTable written]
  · rw [client.run_getFields now schema location memory sound, looks, Except.bind,
      ByField.foundFields_map, Document.ofFieldTable_filterMap written]
  · rw [client.run_getField now schema location memory sound, looks]

theorem delete_of_holdsFields {memory : Memory} {schema : Schema} {location : Location}
    {record : Option Record} (sound : memory.poisoned = false)
    (holds : memory.HoldsFields (schema.key location) record) (client : Client) (now : Nat) :
    (client.run now (.deleteFields schema.name location) memory).1 =
      if client.isCancelled then .error .cancelled
      else .ok (record.filter (Record.isCurrent now)).isSome := by
  rw [client.run_deleteFields, Memory.perform_of_sound sound, Memory.performSound,
    holds.isSome_live? now]
  split <;> rfl

theorem put_of_holdsFields {memory : Memory} {schema : Schema} {location : Location}
    {record : Option Record} (sound : memory.poisoned = false)
    (holds : memory.HoldsFields (schema.key location) record) {client : Client} {now : Nat}
    {doc : Document} {ttl : Option Duration} (runs : client.isCancelled = false)
    (encodable : doc.Encodable) (positive : ∀ d ∈ ttl, d.isZero = false)
    (onClock : Memory.OnClock now ttl) :
    (client.run now (.putFields schema.name location doc ttl) memory).1 = .ok () := by
  obtain ⟨table, written⟩ := (Document.exists_toFieldTable_iff doc).2 encodable
  cases empty : doc.isEmpty with
  | true => rw [client.run_putFields_empty now schema location memory written empty positive]
  | false =>
      obtain ⟨after, performed, -⟩ := holds.perform_hashSet sound written onClock
      rw [client.run_putFields now schema location memory written empty positive, runs,
        if_neg Bool.false_ne_true, performed]

/--
Documents by field are a merging map.  After any operations of any clients, of which those on whole
documents and those on locks leave the key of a location alone, the location is answered for as the
map tells.
-/
theorem documents_by_field_act_as_merging_map {history : History} (onClock : history.OnClock)
    (accepted : ∀ step ∈ history, step.operation.FieldsAccepted) (schema : Schema)
    (location : Location) (apart : ∀ step ∈ history, step.operation.isByField = false →
      schema.key location ∉ step.operation.keys) :
    ActsAsMergingMap history schema location := by
  have sound := History.poisoned_after onClock
  have holds := holdsFields_after onClock accepted apart
  constructor
  case getAll =>
    intro client now
    obtain ⟨_, -, reads⟩ := reads_of_holdsFields sound holds now
    exact (reads client).1
  case getSome =>
    intro client now
    obtain ⟨_, -, reads⟩ := reads_of_holdsFields sound holds now
    exact (reads client).2.1
  case getOne =>
    intro now
    obtain ⟨hash, written, reads⟩ := reads_of_holdsFields sound holds now
    refine ⟨hash, written, fun client field => ⟨(reads client).2.2 field, ?_⟩⟩
    have read := Document.map_ofFieldText_get? written field
    rw [← Option.isSome_map, read]
    rfl
  case delete => exact delete_of_holdsFields sound holds
  case put =>
    intro client now doc ttl runs some
    refine ⟨Record.merged _ now doc ttl, ?_, get?_merged _ now doc ttl, deadline_merged _ now doc ttl⟩
    rw [History.merged, Step.merged, runs]
    dsimp only
    rw [some]
    exact Records.set_same _ _ _ _
  case putOk =>
    exact fun client now doc ttl runs => put_of_holdsFields sound holds runs
  case putEmpty =>
    intro client now doc ttl none
    rw [History.merged, Step.merged]
    dsimp only
    rw [none, if_pos rfl, ite_self]
  case removed =>
    intro client now runs
    rw [History.merged, Step.merged, runs]
    exact Records.set_same _ _ _ _
  case others => exact fun step untouched => merged_of_not_mem untouched (History.merged history)

/-- A second document joins the first and shares its deadline, whoever holds a lock meanwhile. -/
theorem documents_by_field_act_as_merging_map_example :
    let client : Client := ⟨.usual, none, 0, .exact⟩
    let place : Location := ⟨["a"], by decide, by decide⟩
    let first : Document := Document.empty.set "n" (.integer 3)
    let second : Document := Document.empty.set "m" (.boolean true)
    let history : History :=
      [⟨4, client, .acquire "build" "alice" ⟨9, by decide⟩⟩,
        ⟨3, client, .putFields "notes" place second none⟩,
        ⟨1, client, .putFields "notes" place first (some ⟨5, by decide⟩)⟩]
    (client.run 5 (.getAllFields "notes" place) (History.after history)).1 =
        .ok (first.set "m" (.boolean true)) ∧
      (client.run 6 (.getAllFields "notes" place) (History.after history)).1 = .ok .empty := by
  intro client place first second history
  have encodable : ∀ doc ∈ [first, second], doc.Encodable := by
    intro doc among value mem
    rcases List.mem_pair.1 among with rfl | rfl
    · obtain rfl := List.mem_singleton.1 mem
      decide
    · obtain rfl := List.mem_singleton.1 mem
      decide
  have onClock : history.OnClock := by
    simp [history, History.OnClock, Memory.OnClock, Operation.ttl?, Memory.horizon, nanosPerSecond]
  have accepted : ∀ step ∈ history, step.operation.FieldsAccepted := by
    intro step mem
    rcases List.mem_cons.1 mem with rfl | mem
    · exact trivial
    · rcases List.mem_pair.1 mem with rfl | rfl
      · exact ⟨encodable second (by simp), by rintro d ⟨⟩⟩
      · exact ⟨encodable first (by simp), by rintro d ⟨⟩; rfl⟩
  have apart : ∀ step ∈ history, step.operation.isByField = false →
      (⟨"notes", by decide, by decide⟩ : Schema).key place ∉ step.operation.keys := by
    intro step mem foreign
    rcases List.mem_cons.1 mem with rfl | mem
    · decide
    · rcases List.mem_pair.1 mem with rfl | rfl <;> cases foreign
  have map := documents_by_field_act_as_merging_map onClock accepted
    ⟨"notes", by decide, by decide⟩ place apart
  exact ⟨map.getAll client 5, map.getAll client 6⟩

end Folio
