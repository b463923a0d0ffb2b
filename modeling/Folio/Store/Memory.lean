import Folio.SortedMap
import Folio.Store.Call

/-!
# The store in memory

The state is a map from keys to entries with optional deadlines.  An entry whose
deadline has come counts as absent; it is dropped when a writer next touches its
key.  The moment of a call is an argument, so time is whatever the caller says.

Moments are nanoseconds on a clock that ends at a horizon.  A deadline beyond the
horizon breaks the call off, and if the call was already writing, the store stays
unusable from then on.
-/

namespace Folio

inductive Stored where
  | bytes (value : Bytes)
  | hash (fields : SortedMap String)

/-- What a key holds and when it ceases to. -/
structure Entry where
  stored : Stored
  expiresAt : Option Nat

def Entry.isLive (now : Nat) (entry : Entry) : Bool :=
  match entry.expiresAt with
  | none => true
  | some deadline => now < deadline

def Entry.holds (token : String) (entry : Entry) : Bool :=
  match entry.stored with
  | .bytes value => value == Text.utf8 token
  | .hash _ => false

structure Memory where
  entries : SortedMap Entry
  /-- Whether a writer was broken off, after which every call is refused. -/
  poisoned : Bool

namespace Memory

def empty : Memory := ⟨.empty, false⟩

/-- The first moment that is no longer on the clock. -/
def horizon : Nat := 0x8000000000000000 * nanosPerSecond

/-- The refusal of a call that reads or writes a key of the other kind. -/
def wrongKind : Failure :=
  .rejected "WRONGTYPE Operation against a key holding the wrong kind of value"

/-- The refusal of every call to a poisoned store. -/
def lockPoisoned : Failure := .rejected "memory store lock poisoned"

/-- The deadline of an entry written now, if it is on the clock. -/
def deadline? (now : Nat) (ttl : Duration) : Option Nat :=
  if now + ttl.nanos < horizon then some (now + ttl.nanos) else none

/-- The entry of a key that still counts. -/
def live? (now : Nat) (key : String) (memory : Memory) : Option Entry :=
  (memory.entries.get? key).filter (Entry.isLive now)

def put (key : String) (entry : Entry) (memory : Memory) : Memory :=
  { memory with entries := memory.entries.insert key entry }

def drop (key : String) (memory : Memory) : Memory :=
  { memory with entries := memory.entries.erase key }

/-- Drop a key whose deadline has come. -/
def purge (now : Nat) (key : String) (memory : Memory) : Memory :=
  if (memory.live? now key).isNone then memory.drop key else memory

/-- The state behind a writer that was broken off. -/
def poison (memory : Memory) : Memory := { memory with poisoned := true }

/-- Look at the hash under a key; an absent key looks like the empty hash. -/
def readHash {α : Type} (now : Nat) (key : String) (look : SortedMap String → α)
    (memory : Memory) : Except Failure α :=
  match memory.live? now key with
  | none => .ok (look .empty)
  | some ⟨.hash fields, _⟩ => .ok (look fields)
  | some ⟨.bytes _, _⟩ => .error wrongKind

/-- Merge fields into a hash whose deadline is `expiresAt`, and move the deadline. -/
def mergeHash (now : Nat) (key : String) (fields : List (String × String))
    (ttl : Option Duration) (hash : SortedMap String) (expiresAt : Option Nat)
    (memory : Memory) : Except Failure Unit × Memory :=
  let merged := Stored.hash (hash.insertMany fields)
  match ttl with
  | none => (.ok (), memory.put key ⟨merged, expiresAt⟩)
  | some ttl =>
      match deadline? now ttl with
      | some deadline => (.ok (), memory.put key ⟨merged, some deadline⟩)
      | none => (.error .deadlineOverflow, (memory.put key ⟨merged, expiresAt⟩).poison)

def performSound (now : Nat) : (call : Call) → Memory → Except Failure call.Answer × Memory
  | .get key, memory =>
      match memory.live? now key with
      | none => (.ok none, memory)
      | some ⟨.bytes value, _⟩ => (.ok (some value), memory)
      | some ⟨.hash _, _⟩ => (.error wrongKind, memory)
  | .set key value ttl, memory =>
      match ttl with
      | none => (.ok (), memory.put key ⟨.bytes value, none⟩)
      | some ttl =>
          match deadline? now ttl with
          | some deadline => (.ok (), memory.put key ⟨.bytes value, some deadline⟩)
          | none => (.error .deadlineOverflow, memory)
  | .setMany entries, memory =>
      (.ok (), entries.foldl (fun memory entry => memory.put entry.1 ⟨.bytes entry.2, none⟩) memory)
  | .hashSet key fields ttl, memory =>
      match memory.live? now key with
      | none => mergeHash now key fields ttl .empty none memory
      | some ⟨.hash hash, expiresAt⟩ => mergeHash now key fields ttl hash expiresAt memory
      | some ⟨.bytes _, _⟩ => (.error wrongKind, memory)
  | .hashGetAll key, memory => (memory.readHash now key (·.entries), memory)
  | .hashGetMany key fields, memory =>
      (memory.readHash now key (fun hash => fields.map hash.get?), memory)
  | .hashGet key field, memory => (memory.readHash now key (·.get? field), memory)
  | .delete key, memory => (.ok (memory.live? now key).isSome, memory.drop key)
  | .setIfAbsent key token ttl, memory =>
      if (memory.live? now key).isSome then (.ok false, memory)
      else
        match deadline? now ttl with
        | some deadline => (.ok true, memory.put key ⟨.bytes (Text.utf8 token), some deadline⟩)
        | none => (.error .deadlineOverflow, (memory.drop key).poison)
  | .expireIfEqual key token ttl, memory =>
      match (memory.live? now key).filter (Entry.holds token) with
      | none => (.ok false, memory.purge now key)
      | some entry =>
          match deadline? now ttl with
          | some deadline => (.ok true, memory.put key { entry with expiresAt := some deadline })
          | none => (.error .deadlineOverflow, memory.poison)
  | .deleteIfEqual key token, memory =>
      match (memory.live? now key).filter (Entry.holds token) with
      | none => (.ok false, memory.purge now key)
      | some _ => (.ok true, memory.drop key)

/--
Answer a call at the moment `now`.  The deadline of a plain write is computed
before the store is touched, so it is the one failure that a poisoned store can
still answer with.
-/
def perform (now : Nat) (call : Call) (memory : Memory) :
    Except Failure call.Answer × Memory :=
  if memory.poisoned then
    match call with
    | .set _ _ (some ttl) =>
        if (deadline? now ttl).isNone then (.error .deadlineOverflow, memory)
        else (.error lockPoisoned, memory)
    | _ => (.error lockPoisoned, memory)
  else performSound now call memory

def listKeys (now : Nat) (pattern : String) (memory : Memory) : Listing String :=
  match KeyPattern.compile pattern with
  | .error fault => ⟨[], some (.ofPattern fault)⟩
  | .ok compiled =>
      if memory.poisoned then ⟨[], some lockPoisoned⟩
      else
        ⟨(memory.entries.filter fun key entry =>
            entry.isLive now && compiled.isMatch key).keys, none⟩

/-- The store at the moment `now`; a scan lists the keys of the moment it is begun. -/
def store (now : Nat) : Store Memory where
  perform := perform now
  scan := fun pattern memory =>
    let listing := memory.listKeys now pattern
    (fun later => (listing, later), memory)

def liveEntries (now : Nat) (memory : Memory) : SortedMap Entry :=
  memory.entries.filter fun _ entry => entry.isLive now

/-- How many keys count at a moment; a poisoned store shows none. -/
def size (now : Nat) (memory : Memory) : Nat :=
  if memory.poisoned then 0 else (memory.liveEntries now).size

end Memory

end Folio
