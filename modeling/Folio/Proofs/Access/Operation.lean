import Folio.Access.ByField
import Folio.Access.Find
import Folio.Access.Lock
import Folio.Access.Whole
import Folio.Proofs.Location
import Folio.Proofs.Store.Memory

/-!
# Operations on a store in memory

Clients act on one store in memory, one operation after the other.  A client has
a retry policy, a way to wait, a moment at which it is cancelled and a clock of its
own for them; since a store in memory never fails for the moment only, a client that
is not cancelled sends each call exactly once.  An operation asks for the keys that
its arguments name, and for no others.
-/

namespace Folio

structure Client where
  retry : RetryPolicy
  cancelAt : Option Nat
  /-- The time on the client's own clock. -/
  clock : Nat
  wait : Wait

inductive Operation where
  | put (schema : String) (location : Location) (doc : Document) (ttl : Option Duration)
  | putMany (schema : String) (docs : List (Location × Document))
  | get (schema : String) (location : Location)
  | delete (schema : String) (location : Location)
  | find (schema : String) (pattern : Location)
  | putFields (schema : String) (location : Location) (doc : Document) (ttl : Option Duration)
  | getAllFields (schema : String) (location : Location)
  | getFields (schema : String) (location : Location) (fields : List String)
  | getField (schema : String) (location : Location) (field : String)
  | deleteFields (schema : String) (location : Location)
  | acquire (key token : String) (ttl : Duration)
  | extend (key token : String) (ttl : Duration)
  | release (key token : String)

namespace Operation

abbrev Answer : Operation → Type
  | put _ _ _ _ | putMany _ _ | putFields _ _ _ _ => Unit
  | get _ _ | getAllFields _ _ | getFields _ _ _ => Document
  | getField _ _ _ => Option String
  | find _ _ => Memory → Listing Location × Memory
  | delete _ _ | deleteFields _ _ | acquire _ _ _ | extend _ _ _ | release _ _ => Bool

def act (access : Access Memory) : (operation : Operation) → Action Memory operation.Answer
  | put schema location doc ttl => Whole.put access schema location doc ttl
  | putMany schema docs => Whole.putMany access schema docs
  | get schema location => Whole.get access schema location
  | delete schema location => Whole.delete access schema location
  | find schema pattern => Find.start access schema pattern
  | putFields schema location doc ttl => ByField.put access schema location doc ttl
  | getAllFields schema location => ByField.get access schema location
  | getFields schema location fields => ByField.getFields access schema location fields
  | getField schema location field => ByField.getField access schema location field
  | deleteFields schema location => ByField.delete access schema location
  | acquire key token ttl => Lock.acquire access key token ttl
  | extend key token ttl => Lock.extend access key token ttl
  | release key token => Lock.release access key token

/-- The key of a document, if its schema has one. -/
def keysAt (schema : String) (location : Location) : List String :=
  match documentKey schema location with
  | .ok key => [key]
  | .error _ => []

/-- The keys that an operation asks for; a search only looks at what there is. -/
def keys : Operation → List String
  | put schema location _ _ | get schema location | delete schema location
  | putFields schema location _ _ | getAllFields schema location | getFields schema location _
  | getField schema location _ | deleteFields schema location => keysAt schema location
  | putMany schema docs => docs.flatMap fun (location, _) => keysAt schema location
  | find _ _ => []
  | acquire key _ _ | extend key _ _ | release key _ => [key]

def ttl? : Operation → Option Duration
  | put _ _ _ ttl | putFields _ _ _ ttl => ttl
  | acquire _ _ ttl | extend _ _ ttl => some ttl
  | putMany _ _ | get _ _ | delete _ _ | find _ _ | getAllFields _ _ | getFields _ _ _
  | getField _ _ _ | deleteFields _ _ | release _ _ => none

end Operation

namespace Client

def access (client : Client) (now : Nat) : Access Memory :=
  ⟨Memory.store now, client.retry, client.cancelAt, client.wait⟩

def isCancelled (client : Client) : Bool := cancelledBy client.cancelAt client.clock

def run (client : Client) (now : Nat) (operation : Operation) (memory : Memory) :
    Except Failure operation.Answer × Memory :=
  let (answer, world) := operation.act (client.access now) ⟨client.clock, memory⟩
  (answer, world.store)

/-- A call that may be retried is performed once, unless the client is cancelled. -/
theorem retried_access (client : Client) (now : Nat) (call : Call) (memory : Memory) :
    (client.access now).retried call ⟨client.clock, memory⟩ =
      if client.isCancelled then (.error .cancelled, ⟨client.clock, memory⟩)
      else ((memory.perform now call).1, ⟨client.clock, (memory.perform now call).2⟩) := by
  have single : client.retry.run client.wait client.cancelAt ((client.access now).attempt call)
      client.clock memory = _ :=
    client.retry.run_of_final client.wait client.cancelAt client.clock rfl
      (Memory.final_perform now call memory)
  unfold Access.retried
  dsimp only [access] at single ⊢
  rw [single, isCancelled]
  cases cancelled : cancelledBy client.cancelAt client.clock with
  | false => rfl
  | true =>
      have past : max client.clock (client.cancelAt.getD client.clock) = client.clock := by
        cases cancelAt : client.cancelAt with
        | none => exact Nat.max_self client.clock
        | some moment =>
            rw [cancelAt] at cancelled
            exact Nat.max_eq_left (of_decide_eq_true cancelled)
      rw [if_pos rfl, if_pos rfl, RetryPolicy.cutOff, cutAt, past]

/-- What is left of a call that may be retried, once the clock of waits is forgotten. -/
theorem store_retried (client : Client) (now : Nat) (call : Call) (memory : Memory) :
    (((client.access now).retried call ⟨client.clock, memory⟩).1,
        ((client.access now).retried call ⟨client.clock, memory⟩).2.store) =
      if client.isCancelled then (.error .cancelled, memory) else memory.perform now call := by
  rw [retried_access]
  split <;> rfl

/-- The same of a call whose answer is read. -/
theorem store_reading {β : Type} (client : Client) (now : Nat) (call : Call)
    (read : call.Answer → Except Failure β) (memory : Memory) :
    ((Action.reading ((client.access now).retried call) read ⟨client.clock, memory⟩).1,
        (Action.reading ((client.access now).retried call) read ⟨client.clock, memory⟩).2.store) =
      if client.isCancelled then (.error .cancelled, memory)
      else ((memory.perform now call).1.bind read, (memory.perform now call).2) := by
  unfold Action.reading
  dsimp only
  rw [retried_access]
  split <;> rfl

/-- A document that is accepted is written as one blob. -/
theorem run_put_eq (client : Client) (now : Nat) (schema : String) (location : Location)
    (doc : Document) (ttl : Option Duration) (memory : Memory) :
    client.run now (.put schema location doc ttl) memory =
      match Whole.preparePut schema location doc ttl with
      | .ok (key, blob) =>
          if client.isCancelled then (.error .cancelled, memory)
          else memory.perform now (.set key blob ttl)
      | .error failure => (.error failure, memory) := by
  unfold run
  dsimp only [Operation.act, Whole.put, Action.checked]
  cases Whole.preparePut schema location doc ttl with
  | error failure => rfl
  | ok written => exact client.store_retried now (.set written.1 written.2 ttl) memory

/-- A document that is accepted is merged field by field, if it has any. -/
theorem run_putFields_eq (client : Client) (now : Nat) (schema : String) (location : Location)
    (doc : Document) (ttl : Option Duration) (memory : Memory) :
    client.run now (.putFields schema location doc ttl) memory =
      match ByField.preparePut schema location doc ttl with
      | .ok (key, fields) =>
          if fields.isEmpty then (.ok (), memory)
          else if client.isCancelled then (.error .cancelled, memory)
          else memory.perform now (.hashSet key fields ttl)
      | .error failure => (.error failure, memory) := by
  unfold run
  dsimp only [Operation.act, ByField.put, Action.checked]
  cases ByField.preparePut schema location doc ttl with
  | error failure => rfl
  | ok written =>
      dsimp only
      cases written.2.isEmpty with
      | true => rfl
      | false => exact client.store_retried now (.hashSet written.1 written.2 ttl) memory

end Client

/-! ## Actions -/

/-- Whether an action comes to at most one call, for some keys and with some time to live. -/
inductive Action.Sends (client : Client) (now : Nat) (keys : List String) (ttl : Option Duration) :
    {α : Type} → Action Memory α → Prop
  | answer {α : Type} (a : α) : Sends client now keys ttl (Action.answer a)
  | once (call : Call) (own : call.keys = keys) (deadline : call.ttl? = ttl) :
      Sends client now keys ttl ((client.access now).once call)
  | retried (call : Call) (own : call.keys = keys) (deadline : call.ttl? = ttl) :
      Sends client now keys ttl ((client.access now).retried call)
  | checked {α β : Type} {check : Except Failure β} {behind : β → Action Memory α}
      (sends : ∀ b, check = .ok b → Sends client now keys ttl (behind b)) :
      Sends client now keys ttl (Action.checked check behind)
  | reading {α β : Type} {action : Action Memory β} (sends : Sends client now keys ttl action)
      (read : β → Except Failure α) : Sends client now keys ttl (Action.reading action read)

namespace Action

variable {α : Type} {client : Client} {now : Nat} {keys : List String} {ttl : Option Duration}

theorem checked_ok {σ β : Type} (b : β) (next : β → Action σ α) : checked (.ok b) next = next b := rfl

/-- An action leaves all keys alone but its own, and breaks the store by its deadline only. -/
theorem Sends.leaves {action : Action Memory α} (sends : action.Sends client now keys ttl)
    (world : World Memory) : Memory.Leaves now keys ttl world.store (action world).2.store := by
  induction sends with
  | answer a => exact .refl
  | once call own deadline =>
      subst own deadline
      exact Memory.leaves_perform now call world.store
  | retried call own deadline =>
      subst own deadline
      obtain ⟨clock, memory⟩ := world
      -- The clock on which the action is begun takes the place of the client's.
      have single := Client.retried_access { client with clock := clock } now call memory
      change (client.access now).retried call ⟨clock, memory⟩ = _ at single
      rw [single]
      split
      · exact .refl
      · exact Memory.leaves_perform now call memory
  | @checked _ _ check _ sends ih =>
      unfold Action.checked
      cases checked : check with
      | error failure => exact .refl
      | ok b => exact ih b checked
  | reading sends read ih => exact ih

end Action

/-! ## Arguments -/

namespace Whole

theorem entry_eq_ok_iff {schema : String} {location : Location} {doc : Document}
    {written : String × Bytes} :
    entry schema location doc = .ok written ↔
      documentKey schema location = .ok written.1 ∧ encode doc = .ok written.2 := by
  unfold entry
  rw [bind_eq_ok_iff]
  constructor
  · rintro ⟨key, keyed, entered⟩
    obtain ⟨blob, encoded, ⟨⟩⟩ := bind_eq_ok_iff.1 entered
    exact ⟨keyed, encoded⟩
  · rintro ⟨keyed, encoded⟩
    exact ⟨written.1, keyed, bind_eq_ok_iff.2 ⟨written.2, encoded, rfl⟩⟩

theorem entries_cons_eq_ok_iff {schema : String} {first : Location × Document}
    {rest : List (Location × Document)} {written : List (String × Bytes)} :
    entries schema (first :: rest) = .ok written ↔
      ∃ head tail, entry schema first.1 first.2 = .ok head ∧ entries schema rest = .ok tail ∧
        written = head :: tail := by
  obtain ⟨location, doc⟩ := first
  rw [entries, bind_eq_ok_iff]
  constructor
  · rintro ⟨head, entered, others⟩
    obtain ⟨tail, more, ⟨⟩⟩ := bind_eq_ok_iff.1 others
    exact ⟨head, tail, entered, more, rfl⟩
  · rintro ⟨head, tail, entered, more, rfl⟩
    exact ⟨head, entered, bind_eq_ok_iff.2 ⟨tail, more, rfl⟩⟩

/-- The entries of documents are under their keys, in their order. -/
theorem keys_entries {schema : String} {docs : List (Location × Document)}
    {written : List (String × Bytes)} (ok : entries schema docs = .ok written) :
    written.map (·.1) = docs.flatMap fun (location, _) => Operation.keysAt schema location := by
  induction docs generalizing written with
  | nil =>
      cases ok
      rfl
  | cons doc rest ih =>
      obtain ⟨head, tail, entered, more, rfl⟩ := entries_cons_eq_ok_iff.1 ok
      have key := (entry_eq_ok_iff.1 entered).1
      rw [List.map_cons, ih more, List.flatMap_cons]
      dsimp only
      rw [Operation.keysAt, key]
      rfl

end Whole

theorem Whole.of_preparePut {schema : String} {location : Location} {doc : Document}
    {ttl : Option Duration} {written : String × Bytes}
    (ok : preparePut schema location doc ttl = .ok written) :
    entry schema location doc = .ok written := by
  obtain ⟨_, -, entered⟩ := bind_eq_ok_iff.1 ok
  exact entered

theorem Whole.of_preparePutMany {schema : String} {docs : List (Location × Document)}
    {written : List (String × Bytes)} (ok : preparePutMany schema docs = .ok written) :
    entries schema docs = .ok written := by
  obtain ⟨_, -, entered⟩ := bind_eq_ok_iff.1 ok
  exact entered

theorem ByField.of_preparePut {schema : String} {location : Location} {doc : Document}
    {ttl : Option Duration} {written : String × List (String × String)}
    (ok : preparePut schema location doc ttl = .ok written) :
    documentKey schema location = .ok written.1 := by
  obtain ⟨_, -, checked⟩ := bind_eq_ok_iff.1 ok
  obtain ⟨key, keyed, more⟩ := bind_eq_ok_iff.1 checked
  obtain ⟨fields, -, ⟨⟩⟩ := bind_eq_ok_iff.1 more
  exact keyed

namespace Operation

theorem keysAt_of_ok {schema : String} {location : Location} {key : String}
    (ok : documentKey schema location = .ok key) : keysAt schema location = [key] := by
  rw [keysAt, ok]

/-- Whether an operation looks at whatever keys there are. -/
def isSearch : Operation → Bool
  | find _ _ => true
  | _ => false

theorem sends_keyed {α : Type} {client : Client} {now : Nat} {schema : String} {location : Location}
    {ttl : Option Duration} {next : String → Action Memory α}
    (sends : ∀ key, (next key).Sends client now [key] ttl) :
    (Action.checked (documentKey schema location) next).Sends client now (keysAt schema location)
      ttl := by
  refine .checked fun key ok => ?_
  rw [keysAt_of_ok ok]
  exact sends key

/-- An operation that is no search comes to at most one call. -/
theorem sends_act (client : Client) (now : Nat) {operation : Operation}
    (noSearch : operation.isSearch = false) :
    (operation.act (client.access now)).Sends client now operation.keys operation.ttl? := by
  cases operation with
  | put schema location doc ttl =>
      refine .checked fun written ok => ?_
      have key := (Whole.entry_eq_ok_iff.1 (Whole.of_preparePut ok)).1
      exact .retried (.set written.1 written.2 ttl) (keysAt_of_ok key).symm rfl
  | putMany schema docs =>
      refine .checked fun written ok => ?_
      have entered := Whole.keys_entries (Whole.of_preparePutMany ok)
      cases written.isEmpty with
      | true => exact .answer ()
      | false => exact .retried (.setMany written) entered rfl
  | putFields schema location doc ttl =>
      refine .checked fun (key, fields) ok => ?_
      have keyed := keysAt_of_ok (ByField.of_preparePut ok)
      dsimp only
      cases fields.isEmpty with
      | true => exact .answer ()
      | false => exact .retried (.hashSet key fields ttl) keyed.symm rfl
  | find schema pattern => cases noSearch
  | get schema location => exact sends_keyed fun key => .reading (.retried (.get key) rfl rfl) _
  | delete schema location => exact sends_keyed fun key => .retried (.delete key) rfl rfl
  | getAllFields schema location =>
      exact sends_keyed fun key => .reading (.retried (.hashGetAll key) rfl rfl) _
  | getFields schema location fields =>
      exact sends_keyed fun key => .reading (.retried (.hashGetMany key fields) rfl rfl) _
  | getField schema location field =>
      exact sends_keyed fun key => .retried (.hashGet key field) rfl rfl
  | deleteFields schema location => exact sends_keyed fun key => .retried (.delete key) rfl rfl
  | acquire key token ttl => exact .checked fun _ _ => .once (.setIfAbsent key token ttl) rfl rfl
  | extend key token ttl => exact .checked fun _ _ => .once (.expireIfEqual key token ttl) rfl rfl
  | release key token => exact .checked fun _ _ => .once (.deleteIfEqual key token) rfl rfl

/-- A search changes nothing. -/
theorem store_find (client : Client) (now : Nat) (schema : String) (pattern : Location)
    (memory : Memory) : (client.run now (.find schema pattern) memory).2 = memory := by
  unfold Client.run
  dsimp only [act, Find.start, Action.checked]
  cases Find.prepare schema pattern <;> rfl

/-- An operation changes nothing but its keys, and breaks the store by its deadline only. -/
theorem leaves_run (client : Client) (now : Nat) (operation : Operation) (memory : Memory) :
    Memory.Leaves now operation.keys operation.ttl? memory
      (client.run now operation memory).2 := by
  cases search : operation.isSearch with
  | false => exact (sends_act client now search).leaves ⟨client.clock, memory⟩
  | true =>
      cases operation with
      | find schema pattern =>
          rw [store_find]
          exact .refl
      | _ => cases search

end Operation

end Folio
