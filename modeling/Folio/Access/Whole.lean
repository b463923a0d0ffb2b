import Folio.Access.Basic
import Folio.Document.Blob

/-!
# Whole documents

Each document is stored as one blob under its key.
-/

namespace Folio.Whole

variable {σ : Type}

def encode (doc : Document) : Except Failure Bytes := doc.toBlob.mapError .unencodable

/-- The document of a stored blob; nothing stored reads as the empty document. -/
def decode (stored : Option Bytes) : Except Failure Document :=
  match stored with
  | none => .ok .empty
  | some blob => (Document.ofBlob blob).mapError .undecodable

def entry (schema : String) (location : Location) (doc : Document) :
    Except Failure (String × Bytes) := do
  let key ← documentKey schema location
  let blob ← encode doc
  .ok (key, blob)

def entries (schema : String) : List (Location × Document) → Except Failure (List (String × Bytes))
  | [] => .ok []
  | (location, doc) :: rest => do
      let first ← entry schema location doc
      let others ← entries schema rest
      .ok (first :: others)

def preparePut (schema : String) (location : Location) (doc : Document)
    (ttl : Option Duration) : Except Failure (String × Bytes) := do
  checkTtl ttl
  entry schema location doc

def preparePutMany (schema : String) (docs : List (Location × Document)) :
    Except Failure (List (String × Bytes)) := do
  let _ ← checkSchema schema
  entries schema docs

/--
Store a document, replacing what was at its location.  Without a duration it does
not expire.
-/
def put (access : Access σ) (schema : String) (location : Location) (doc : Document)
    (ttl : Option Duration) : Action σ Unit :=
  .checked (preparePut schema location doc ttl) fun (key, blob) =>
    access.retried (.set key blob ttl)

/-- Store several documents at once; they do not expire.  No document, no call. -/
def putMany (access : Access σ) (schema : String) (docs : List (Location × Document)) :
    Action σ Unit :=
  .checked (preparePutMany schema docs) fun entries =>
    if entries.isEmpty then .answer () else access.retried (.setMany entries)

def get (access : Access σ) (schema : String) (location : Location) : Action σ Document :=
  .checked (documentKey schema location) fun key =>
    Action.reading (access.retried (.get key)) decode

/-- Remove the document at a location, and tell whether there was one. -/
def delete (access : Access σ) (schema : String) (location : Location) : Action σ Bool :=
  .checked (documentKey schema location) fun key => access.retried (.delete key)

end Folio.Whole
