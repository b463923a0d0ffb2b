import Folio.Document

/-!
# Documents as one blob

The blob of a document is the UTF-8 text of one JSON object.
-/

namespace Folio.Document

/-- The blob of a document, or the first obstacle to writing it. -/
def toBlob (doc : Document) : Except Unencodable Bytes :=
  match doc.obstacle? with
  | some obstacle => .error obstacle
  | none => .ok (Text.utf8 doc.display)

/-- Read a document from the front of a JSON text, which has to be an object. -/
def read (bytes : Bytes) : Except Json.Fault (Document × Bytes) :=
  match Json.skipBlank bytes with
  | [] => .error .endOfText
  | b :: rest =>
      if b = Json.ascii '{' then do
        let (fields, rest) ←
          Json.readObject Json.readKey (Value.read (Json.maxOpen - 1)) rest.length rest
        .ok (ofList fields, rest)
      else .error (Json.refusal (b :: rest))

def ofBlob (blob : Bytes) : Except Json.Fault Document := Json.finish (read blob)

end Folio.Document
