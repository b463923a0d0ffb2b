import Folio.Duration
import Folio.Failure
import Folio.Text.Utf8

/-!
# Calls to a key-value store

A store holds byte values and hashes of text fields under text keys.  What it can
be asked is a type of its own, so that an operation can be looked at as the list
of calls it makes.  A scan is apart: it is begun at one moment and read later.
-/

namespace Folio

inductive Call where
  | get (key : String)
  /-- Replace whatever a key holds; without a duration the key does not expire. -/
  | set (key : String) (value : Bytes) (ttl : Option Duration)
  /-- Replace several keys at once; they do not expire. -/
  | setMany (entries : List (String × Bytes))
  /-- Merge fields into the hash under a key. -/
  | hashSet (key : String) (fields : List (String × String)) (ttl : Option Duration)
  | hashGetAll (key : String)
  | hashGetMany (key : String) (fields : List String)
  | hashGet (key field : String)
  | delete (key : String)
  | setIfAbsent (key token : String) (ttl : Duration)
  /-- Set the time to live of a key that holds a token. -/
  | expireIfEqual (key token : String) (ttl : Duration)
  /-- Delete a key that holds a token. -/
  | deleteIfEqual (key token : String)
  deriving DecidableEq

abbrev Call.Answer : Call → Type
  | get _ => Option Bytes
  | set _ _ _ | setMany _ | hashSet _ _ _ => Unit
  | hashGetAll _ => List (String × String)
  | hashGetMany _ _ => List (Option String)
  | hashGet _ _ => Option String
  | delete _ | setIfAbsent _ _ _ | expireIfEqual _ _ _ | deleteIfEqual _ _ => Bool

/-- What a scan yields: some items, and the failure that ended it, if one did. -/
structure Listing (α : Type) where
  found : List α
  failure : Option Failure

/-- The behaviour of a key-value store whose state is `σ`. -/
structure Store (σ : Type) where
  perform : (call : Call) → σ → Except Failure call.Answer × σ
  /-- Begin a scan for the keys that match a pattern; the result reads its listing. -/
  scan : (pattern : String) → σ → (σ → Listing String × σ) × σ

end Folio
