import Folio.Access.Basic
import Folio.Document.FieldTable

/-!
# Documents by field

Each document is stored as a hash of field texts under its key, so that single
fields can be read.
-/

namespace Folio.ByField

variable {σ : Type}

def preparePut (schema : String) (location : Location) (doc : Document)
    (ttl : Option Duration) : Except Failure (String × List (String × String)) := do
  checkTtl ttl
  let key ← documentKey schema location
  let fields ← doc.toFieldTable.mapError Failure.unencodable
  .ok (key, fields)

/--
Merge the fields of a document into the hash at its location.  Other fields stay.
A duration resets when the whole hash expires.  No field, no call.
-/
def put (access : Access σ) (schema : String) (location : Location) (doc : Document)
    (ttl : Option Duration) : Action σ Unit :=
  .checked (preparePut schema location doc ttl) fun (key, fields) =>
    if fields.isEmpty then .answer () else access.retried (.hashSet key fields ttl)

def get (access : Access σ) (schema : String) (location : Location) : Action σ Document :=
  .checked (documentKey schema location) fun key =>
    Action.reading (access.retried (.hashGetAll key)) fun entries =>
      .ok (Document.ofFieldTable entries)

/-- Pair names with the texts found for them, leaving out those without one. -/
def foundFields : List String → List (Option String) → List (String × String)
  | name :: names, some text :: texts => (name, text) :: foundFields names texts
  | _ :: names, none :: texts => foundFields names texts
  | _, _ => []

/-- Read some fields at a location; those that are not stored are left out. -/
def getFields (access : Access σ) (schema : String) (location : Location)
    (fields : List String) : Action σ Document :=
  .checked (documentKey schema location) fun key =>
    Action.reading (access.retried (.hashGetMany key fields)) fun texts =>
      .ok (Document.ofFieldTable (foundFields fields texts))

def getField (access : Access σ) (schema : String) (location : Location) (field : String) :
    Action σ (Option String) :=
  .checked (documentKey schema location) fun key => access.retried (.hashGet key field)

/-- Remove the hash at a location, and tell whether there was one. -/
def delete (access : Access σ) (schema : String) (location : Location) : Action σ Bool :=
  .checked (documentKey schema location) fun key => access.retried (.delete key)

end Folio.ByField
