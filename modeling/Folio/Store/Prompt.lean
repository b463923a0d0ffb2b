import Folio.Store.Memory

/-!
# A store that forgets at once

A store in memory keeps an entry whose deadline has come until somebody touches its
key.  The store here drops every entry at the moment of its deadline, so what it holds
is what counts, and no operation asks whether an entry has expired.
-/

namespace Folio

/-- A store from which entries vanish at their deadlines. -/
structure Prompt where
  entries : SortedMap Entry

namespace Prompt

/-- What is left when a moment has come: the entries whose deadlines are still ahead. -/
def elapse (now : Nat) (store : Prompt) : Prompt :=
  ⟨store.entries.filter fun _ entry => entry.isLive now⟩

def put (key : String) (entry : Entry) (store : Prompt) : Prompt :=
  ⟨store.entries.insert key entry⟩

def drop (key : String) (store : Prompt) : Prompt := ⟨store.entries.erase key⟩

/-- Look at the hash under a key; an absent key looks like the empty hash. -/
def readHash {α : Type} (key : String) (look : SortedMap String → α) (store : Prompt) :
    Except Failure α :=
  match store.entries.get? key with
  | none => .ok (look .empty)
  | some ⟨.hash fields, _⟩ => .ok (look fields)
  | some ⟨.bytes _, _⟩ => .error Memory.wrongKind

def deadline (now : Nat) (ttl : Option Duration) : Option Nat := ttl.map (now + ·.nanos)

/-- Answer a call; the moment only sets the deadlines of what is written. -/
def perform (now : Nat) : (call : Call) → Prompt → Except Failure call.Answer × Prompt
  | .get key, store =>
      match store.entries.get? key with
      | none => (.ok none, store)
      | some ⟨.bytes value, _⟩ => (.ok (some value), store)
      | some ⟨.hash _, _⟩ => (.error Memory.wrongKind, store)
  | .set key value ttl, store => (.ok (), store.put key ⟨.bytes value, deadline now ttl⟩)
  | .setMany entries, store =>
      (.ok (), entries.foldl (fun store entry => store.put entry.1 ⟨.bytes entry.2, none⟩) store)
  | .hashSet key fields ttl, store =>
      match store.entries.get? key with
      | none => (.ok (), store.put key ⟨.hash (.ofList fields), deadline now ttl⟩)
      | some ⟨.hash hash, expiresAt⟩ =>
          (.ok (), store.put key ⟨.hash (hash.insertMany fields), (deadline now ttl).or expiresAt⟩)
      | some ⟨.bytes _, _⟩ => (.error Memory.wrongKind, store)
  | .hashGetAll key, store => (store.readHash key (·.entries), store)
  | .hashGetMany key fields, store => (store.readHash key (fun hash => fields.map hash.get?), store)
  | .hashGet key field, store => (store.readHash key (·.get? field), store)
  | .delete key, store => (.ok (store.entries.contains key), store.drop key)
  | .setIfAbsent key token ttl, store =>
      if store.entries.contains key then (.ok false, store)
      else (.ok true, store.put key ⟨.bytes (Text.utf8 token), some (now + ttl.nanos)⟩)
  | .expireIfEqual key token ttl, store =>
      match (store.entries.get? key).filter (Entry.holds token) with
      | none => (.ok false, store)
      | some entry => (.ok true, store.put key { entry with expiresAt := some (now + ttl.nanos) })
  | .deleteIfEqual key token, store =>
      match (store.entries.get? key).filter (Entry.holds token) with
      | none => (.ok false, store)
      | some _ => (.ok true, store.drop key)

def listKeys (pattern : String) (store : Prompt) : Listing String :=
  match KeyPattern.compile pattern with
  | .error fault => ⟨[], some (.ofPattern fault)⟩
  | .ok compiled => ⟨store.entries.keys.filter compiled.isMatch, none⟩

def size (store : Prompt) : Nat := store.entries.size

end Prompt

end Folio
