import Folio.Proofs.Access.Merging
import Folio.Redis.Store

/-!
# Fields read from a server

A server lists the fields of a hash in any order, and it answers a request for some
fields with one slot for each.  What is read of these replies is what a store in memory
answers that holds the same fields, so those who read a document field by field cannot
tell the two stores apart.
-/

namespace Folio

/-! ## Replies -/

namespace Redis

namespace Reply

def ofField (field : String × String) : List Reply := [.bulk (word field.1), .bulk (word field.2)]

def ofFields (fields : List (String × String)) : Reply := .array (fields.flatMap ofField)

def ofSlot : Option String → Reply
  | some text => .bulk (word text)
  | none => .nil

def ofSlots (slots : List (Option String)) : Reply := .array (slots.map ofSlot)

theorem itemsFault?_eq_none {items : List Reply} (sound : ∀ item ∈ items, item.fault? = none) :
    itemsFault? items = none := by
  induction items with
  | nil => rfl
  | cons item rest ih =>
      rw [itemsFault?, sound item List.mem_cons_self, Option.none_or]
      exact ih fun other mem => sound other (List.mem_cons_of_mem item mem)

theorem fault?_ofFields (fields : List (String × String)) : (ofFields fields).fault? = none := by
  refine itemsFault?_eq_none fun item mem => ?_
  obtain ⟨field, -, mem⟩ := List.mem_flatMap.1 mem
  obtain rfl | rfl := List.mem_pair.1 mem <;> rfl

theorem fault?_ofSlots (slots : List (Option String)) : (ofSlots slots).fault? = none := by
  refine itemsFault?_eq_none fun item mem => ?_
  obtain ⟨slot, -, rfl⟩ := List.mem_map.1 mem
  cases slot <;> rfl

theorem toText_bulk (text : String) : (bulk (word text)).toText = .ok text := by
  rw [toText, Text.ofUtf8?_utf8]

theorem toText?_ofSlot (slot : Option String) : (ofSlot slot).toText? = .ok slot := by
  cases slot with
  | none => rfl
  | some text =>
      change (bulk (word text)).toText.map some = .ok (some text)
      rw [toText_bulk]
      rfl

theorem readPairs_flatMap (fields : List (String × String)) :
    readPairs (fields.flatMap ofField) = .ok fields := by
  induction fields with
  | nil => rfl
  | cons field rest ih =>
      rw [List.flatMap_cons, ofField, List.cons_append, List.cons_append, List.nil_append]
      rw [readPairs, toText_bulk, toText_bulk, ih]
      rfl

/-- Fields are read from a list as they stand in it. -/
theorem toPairs_ofFields (fields : List (String × String)) :
    (ofFields fields).toPairs = .ok fields := by
  have even : (fields.flatMap ofField).length % 2 = 0 := by
    rw [List.length_flatMap]
    change (fields.map fun _ => 2).sum % 2 = 0
    rw [List.map_const', List.sum_replicate_nat, Nat.mul_mod_left]
  rw [ofFields, toPairs, if_pos even, readPairs_flatMap]

/-- Slots are read one by one. -/
theorem toList_ofSlots (slots : List (Option String)) :
    (ofSlots slots).toList toText? = .ok slots := by
  rw [ofSlots, toList]
  induction slots with
  | nil => rfl
  | cons slot rest ih =>
      rw [List.map_cons, readAll, toText?_ofSlot, ih]
      rfl

end Reply

theorem Peer.ask_of_head? {α : Type} {peer : Peer} {reply : Reply}
    (next : peer.replies.head? = some reply) (sound : reply.fault? = none) (command : Command)
    (read : Reply → Except Fault α) : (peer.ask command read).1 = read reply := by
  obtain ⟨replies, received⟩ := peer
  cases replies with
  | nil => cases next
  | cons first rest =>
      cases next
      rw [ask, exchange]
      dsimp only
      rw [sound]

section Calls

variable {peer : Peer} (count : Nat) (key : String)

theorem perform_store (call : Call) :
    ((store count).perform call peer).1 = (perform call peer).1.mapError Fault.toFailure := rfl

theorem store_hashGetAll {listing : List (String × String)}
    (next : peer.replies.head? = some (.ofFields listing)) :
    ((store count).perform (.hashGetAll key) peer).1 = .ok (SortedMap.ofList listing).entries := by
  rw [perform_store, perform, Peer.ask_of_head? next (Reply.fault?_ofFields listing),
    Reply.toPairs_ofFields]
  rfl

theorem store_hashGetMany (name : String) (names : List String) {slots : List (Option String)}
    (next : peer.replies.head? = some (.ofSlots slots)) :
    ((store count).perform (.hashGetMany key (name :: names)) peer).1 = .ok slots := by
  rw [perform_store, perform, List.isEmpty_cons, if_neg Bool.false_ne_true,
    Peer.ask_of_head? next (Reply.fault?_ofSlots slots), Reply.toList_ofSlots]
  rfl

end Calls

end Redis

/-! ## Fields in memory -/

namespace Memory

/-- Whether a key of a sound store counts as a hash with some fields; an absent key has none. -/
structure ShowsFields (now : Nat) (key : String) (fields : List (String × String))
    (memory : Memory) : Prop where
  sound : memory.poisoned = false
  hash : ∃ hash expiresAt, memory.mergeBase? now key = some (hash, expiresAt) ∧
    ∀ field, field ∈ hash.entries ↔ field ∈ fields

variable {now : Nat} {key : String} {memory : Memory}

/-- A hash is read where fields would be merged into it. -/
theorem readHash_of_mergeBase? {α : Type} {hash : SortedMap String} {expiresAt : Option Nat}
    (base : memory.mergeBase? now key = some (hash, expiresAt)) (look : SortedMap String → α) :
    memory.readHash now key look = .ok (look hash) := by
  rw [mergeBase?] at base
  rw [readHash]
  cases held : memory.live? now key with
  | none =>
      rw [held] at base
      cases base
      rfl
  | some entry =>
      obtain ⟨stored, _⟩ := entry
      rw [held] at base
      cases stored with
      | bytes value => cases base
      | hash fields =>
          cases base
          rfl

theorem ShowsFields.readHash {fields : List (String × String)}
    (shows : memory.ShowsFields now key fields) (distinct : (fields.map (·.1)).Nodup) {α : Type}
    (look : SortedMap String → α) : memory.readHash now key look = .ok (look (.ofList fields)) := by
  obtain ⟨hash, expiresAt, base, same⟩ := shows.hash
  rw [readHash_of_mergeBase? base, SortedMap.eq_ofList distinct same]

end Memory

/-! ## Reading documents -/

section Retried

variable {σ : Type} {access : Access σ} {world : World σ}

/-- A call that is answered at once has that answer, unless its client is cancelled. -/
theorem Access.retried_of_answered {call : Call} {answer : call.Answer}
    (answered : (access.store.perform call world.store).1 = .ok answer) :
    (access.retried call world).1 =
      if cancelledBy access.cancelAt world.now then .error .cancelled else .ok answer := by
  have final : Final (access.attempt call world.store).result := by
    change Final (access.store.perform call world.store).1
    rw [answered]
    exact .ok answer
  have run := access.retry.run_of_final access.wait access.cancelAt world.now rfl final
  unfold Access.retried
  dsimp only
  rw [run]
  split
  · rfl
  · exact answered

theorem Action.reading_of_answered {β : Type} {call : Call} {answer : call.Answer}
    (answered : (access.store.perform call world.store).1 = .ok answer) (read : call.Answer → β) :
    (Action.reading (access.retried call) (fun found => .ok (read found)) world).1 =
      if cancelledBy access.cancelAt world.now then .error .cancelled else .ok (read answer) := by
  unfold Action.reading
  dsimp only
  rw [Access.retried_of_answered answered]
  split <;> rfl

variable {schema : String} {location : Location} {key : String}

theorem ByField.get_of_answered (keyed : documentKey schema location = .ok key)
    {table : List (String × String)}
    (answered : (access.store.perform (.hashGetAll key) world.store).1 = .ok table) :
    (ByField.get access schema location world).1 =
      if cancelledBy access.cancelAt world.now then .error .cancelled
      else .ok (Document.ofFieldTable table) := by
  rw [ByField.get, keyed, Action.checked_ok, Action.reading_of_answered answered]

theorem ByField.getFields_of_answered (keyed : documentKey schema location = .ok key)
    {names : List String} {texts : List (Option String)}
    (answered : (access.store.perform (.hashGetMany key names) world.store).1 = .ok texts) :
    (ByField.getFields access schema location names world).1 =
      if cancelledBy access.cancelAt world.now then .error .cancelled
      else .ok (Document.ofFieldTable (ByField.foundFields names texts)) := by
  rw [ByField.getFields, keyed, Action.checked_ok, Action.reading_of_answered answered]

end Retried

namespace Redis

/-- How a client reaches a server, with a size hint for the pages of a scan. -/
def accessOf (client : Client) (count : Nat) : Access Peer :=
  ⟨store count, client.retry, client.cancelAt, client.wait⟩

/-- Whether the next reply lists some fields, in whatever order. -/
def Peer.Lists (fields : List (String × String)) (peer : Peer) : Prop :=
  ∃ listing : List (String × String), listing.Perm fields ∧
    peer.replies.head? = some (.ofFields listing)

/-- Whether the next reply has a slot for each name, with its text if it is among some fields. -/
def Peer.Fills (fields : List (String × String)) (names : List String)
    (slots : List (Option String)) (peer : Peer) : Prop :=
  List.Forall₂ (fun name slot => ∀ text, slot = some text ↔ (name, text) ∈ fields) names slots ∧
    (names = [] ∨ peer.replies.head? = some (.ofSlots slots))

/--
What those find who read the fields under a key, be it from a store in memory or from a server: a
list of all of them and the document that it makes, or the texts of some of them, in the order in
which they are asked for, and the document that these make.
-/
structure ReadAlike (fields table : List (String × String)) (now : Nat) (key : String)
    (memory : Memory) (count : Nat) : Prop where
  all : (memory.perform now (.hashGetAll key)).1 = .ok table ∧
    ∀ peer : Peer, peer.Lists fields → ((store count).perform (.hashGetAll key) peer).1 = .ok table
  document : ∀ (client : Client) (schema : String) (location : Location),
    documentKey schema location = .ok key →
      (ByField.get (client.access now) schema location ⟨client.clock, memory⟩).1 =
          (if client.isCancelled then .error .cancelled else .ok (Document.ofFieldTable table)) ∧
        ∀ peer : Peer, peer.Lists fields →
          (ByField.get (accessOf client count) schema location ⟨client.clock, peer⟩).1 =
            (ByField.get (client.access now) schema location ⟨client.clock, memory⟩).1
  chosen : ∀ (names : List String) (slots : List (Option String)) (peer : Peer),
    peer.Fills fields names slots →
      (memory.perform now (.hashGetMany key names)).1 = .ok slots ∧
        ((store count).perform (.hashGetMany key names) peer).1 = .ok slots
  chosenDocument : ∀ (client : Client) (schema : String) (location : Location),
    documentKey schema location = .ok key →
      ∀ (names : List String) (slots : List (Option String)) (peer : Peer),
        peer.Fills fields names slots →
          (ByField.getFields (accessOf client count) schema location names
              ⟨client.clock, peer⟩).1 =
            (ByField.getFields (client.access now) schema location names
              ⟨client.clock, memory⟩).1

section ReadAlike

variable {fields : List (String × String)} (distinct : (fields.map (·.1)).Nodup)

include distinct

/-- The order of a list of distinct fields is not seen in the map of them. -/
theorem Peer.Lists.hashGetAll {peer : Peer} (lists : peer.Lists fields) (count : Nat)
    (key : String) : ((store count).perform (.hashGetAll key) peer).1 =
      .ok (SortedMap.ofList fields).entries := by
  obtain ⟨listing, order, next⟩ := lists
  have again : (listing.map (·.1)).Nodup := (order.map _).nodup_iff.2 distinct
  have same : SortedMap.ofList listing = SortedMap.ofList fields :=
    SortedMap.eq_ofList distinct fun field =>
      (SortedMap.mem_ofList_iff again field).trans order.mem_iff
  rw [store_hashGetAll count key next, same]

/-- The slots are what the map of the fields holds under the names. -/
theorem Peer.Fills.slots_eq {names : List String} {slots : List (Option String)} {peer : Peer}
    (fills : peer.Fills fields names slots) :
    slots = names.map (SortedMap.ofList fields).get? := by
  obtain ⟨filled, -⟩ := fills
  induction filled with
  | nil => rfl
  | cons told _ ih =>
      rw [List.map_cons, ← ih]
      refine congrArg (· :: _) (Option.ext fun text => ?_)
      rw [told, SortedMap.get?_eq_some_iff, SortedMap.mem_ofList_iff distinct]

end ReadAlike

theorem Peer.Fills.hashGetMany {fields : List (String × String)} {names : List String}
    {slots : List (Option String)} {peer : Peer} (fills : peer.Fills fields names slots)
    (count : Nat) (key : String) :
    ((store count).perform (.hashGetMany key names) peer).1 = .ok slots := by
  obtain ⟨filled, next⟩ := fills
  cases filled with
  -- Without a name nothing is asked, so there need not be a reply.
  | nil => rfl
  | @cons name _ names =>
      exact store_hashGetMany count key name names (next.resolve_left (List.cons_ne_nil _ _))

/--
Fields are read alike from a server and from a store in memory.  For all distinct fields with their
texts there is one list of them, in the order of the bytes of their names, that is read of every
reply that lists them in some order, and of every store in memory that shows them.
-/
theorem fields_read_alike {fields : List (String × String)}
    (distinct : (fields.map (·.1)).Nodup) :
    ∃ table : List (String × String), table.Perm fields ∧
      (table.Pairwise fun a b => Text.utf8 a.1 < Text.utf8 b.1) ∧
      ∀ (now : Nat) (key : String) (memory : Memory) (count : Nat),
        memory.ShowsFields now key fields → ReadAlike fields table now key memory count := by
  let map := SortedMap.ofList fields
  refine ⟨map.entries, SortedMap.ofList_perm distinct, map.entries_inOrder, ?_⟩
  intro now key memory count shows
  have all : (memory.perform now (.hashGetAll key)).1 = .ok map.entries := by
    rw [Memory.perform_of_sound shows.sound]
    exact shows.readHash distinct (·.entries)
  have chosen : ∀ {names slots} {peer : Peer}, peer.Fills fields names slots →
      (memory.perform now (.hashGetMany key names)).1 = .ok slots := by
    intro names slots peer fills
    rw [Memory.perform_of_sound shows.sound, fills.slots_eq distinct]
    exact shows.readHash distinct fun hash => names.map hash.get?
  constructor
  case all => exact ⟨all, fun peer lists => lists.hashGetAll distinct count key⟩
  case document =>
    intro client schema location keyed
    have read : (ByField.get (client.access now) schema location ⟨client.clock, memory⟩).1 =
        if client.isCancelled then .error .cancelled else .ok (Document.ofFieldTable map.entries) :=
      ByField.get_of_answered keyed all
    refine ⟨read, fun peer lists => Eq.trans ?_ read.symm⟩
    exact ByField.get_of_answered keyed (lists.hashGetAll distinct count key)
  case chosen => exact fun names slots peer fills => ⟨chosen fills, fills.hashGetMany count key⟩
  case chosenDocument =>
    intro client schema location keyed names slots peer fills
    have read : (ByField.getFields (client.access now) schema location names
        ⟨client.clock, memory⟩).1 = _ := ByField.getFields_of_answered keyed (chosen fills)
    rw [read]
    exact ByField.getFields_of_answered keyed (fills.hashGetMany count key)

/-- The server lists the later name first; of three names one is repeated and one has no field. -/
theorem fields_read_alike_example :
    let fields := [("b", "x"), ("n", "1")]
    let memory := Memory.empty.put "notes:a" ⟨.hash (.ofList fields), some 9⟩
    let place : Location := ⟨["a"], by decide, by decide⟩
    let client : Client := ⟨.usual, none, 0, .exact⟩
    let listed : Peer := ⟨[.ofFields [("n", "1"), ("b", "x")]], []⟩
    let filled : Peer := ⟨[.ofSlots [some "1", none, some "1"]], []⟩
    (fields.map (·.1)).Nodup ∧
      (ByField.get (accessOf client 100) "notes" place ⟨0, listed⟩).1 =
        (ByField.get (client.access 3) "notes" place ⟨0, memory⟩).1 ∧
      (ByField.getFields (accessOf client 100) "notes" place ["n", "z", "n"] ⟨0, filled⟩).1 =
        (ByField.getFields (client.access 3) "notes" place ["n", "z", "n"] ⟨0, memory⟩).1 := by
  intro fields memory place client listed filled
  have distinct : (fields.map (·.1)).Nodup := by decide
  have shows : memory.ShowsFields 3 "notes:a" fields :=
    ⟨rfl, .ofList fields, some 9, rfl, SortedMap.mem_ofList_iff distinct⟩
  obtain ⟨table, -, -, alike⟩ := fields_read_alike distinct
  have read := alike 3 "notes:a" memory 100 shows
  have keyed : documentKey "notes" place = .ok "notes:a" := rfl
  have lists : listed.Lists fields := ⟨_, List.Perm.swap _ _ _, rfl⟩
  have fills : filled.Fills fields ["n", "z", "n"] [some "1", none, some "1"] := by
    refine ⟨?_, .inr rfl⟩
    simp [fields, eq_comm]
  exact ⟨distinct, (read.document client "notes" place keyed).2 listed lists,
    read.chosenDocument client "notes" place keyed _ _ filled fills⟩

end Redis

end Folio
