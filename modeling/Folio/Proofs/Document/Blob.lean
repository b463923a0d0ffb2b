import Folio.Document.Blob
import Folio.Proofs.SortedMap
import Folio.Proofs.Value.RoundTrip

/-!
# Blobs read back

A document has a blob exactly when all its doubles are numbers and no field nests
sequences beyond the limit.  The limit stays within what the reader may open, so
the blob of a document reads as the document.
-/

namespace Folio.Document

open Json Text

def Encodable (doc : Document) : Prop :=
  ∀ value ∈ doc.fields.values, value.isFinite = true ∧ value.nesting ≤ Value.maxNesting

theorem obstacle?_eq_none_iff (doc : Document) : doc.obstacle? = none ↔ doc.Encodable := by
  have field : ∀ value : Value, value.obstacle? 0 = none ↔
      value.isFinite = true ∧ value.nesting ≤ Value.maxNesting := by
    intro value
    rw [Value.obstacle?_eq_none_iff value (Nat.zero_le _), Nat.zero_add]
  rw [obstacle?, Value.itemsObstacle?_eq_none_iff_forall, Encodable]
  constructor
  · intro none value mem
    exact (field value).1 (none value mem)
  · intro encodable value mem
    exact (field value).2 (encodable value mem)

theorem toBlob_of_encodable {doc : Document} (encodable : doc.Encodable) :
    doc.toBlob = .ok (utf8 doc.display) := by
  rw [toBlob, (obstacle?_eq_none_iff doc).2 encodable]

/-- A document has a blob iff its fields have encoded forms. -/
theorem exists_toBlob_iff (doc : Document) :
    (∃ blob, doc.toBlob = .ok blob) ↔ doc.Encodable := by
  constructor
  · rintro ⟨blob, written⟩
    refine (obstacle?_eq_none_iff doc).1 ?_
    cases obstacle : doc.obstacle? with
    | none => rfl
    | some fault =>
        rw [toBlob, obstacle] at written
        cases written
  · intro encodable
    exact ⟨utf8 doc.display, toBlob_of_encodable encodable⟩

theorem mem_values_of_mem_toList {doc : Document} {field : String × Value}
    (mem : field ∈ doc.toList) : field.2 ∈ doc.fields.values :=
  List.mem_map_of_mem mem

/-- Inside the braces of a document, a field may open as many arrays as it nests. -/
theorem reads_field {doc : Document} (encodable : doc.Encodable) {field : String × Value}
    (mem : field ∈ doc.toList) :
    Reads (Value.read (maxOpen - 1)) (encode field.2.toJson.chars) field.2 := by
  obtain ⟨finite, within⟩ := encodable field.2 (mem_values_of_mem_toList mem)
  have limits : Value.maxNesting ≤ maxOpen - 1 := by decide
  exact Value.reads_chars finite (Nat.le_trans within limits)

/-- The blob of a document reads as the document. -/
theorem ofBlob_display {doc : Document} (encodable : doc.Encodable) :
    ofBlob (utf8 doc.display) = .ok doc := by
  have text : utf8 doc.display =
      ascii '{' :: (encode (memberChars (doc.toList.map fun field => (field.1, field.2.toJson))) ++
        [ascii '}']) := by
    rw [display, print, utf8_ofList, toJson, chars, encode_cons_of_ascii (by decide), encode_append]
    rfl
  have brace : ∀ bytes, skipBlank (ascii '{' :: bytes) = ascii '{' :: bytes := fun bytes => rfl
  have enough :
      (encode (memberChars (doc.toList.map fun field => (field.1, field.2.toJson)))).length ≤
        (encode (memberChars (doc.toList.map fun field => (field.1, field.2.toJson))) ++
          [ascii '}']).length := by
    rw [List.length_append]
    exact Nat.le_add_right _ _
  have members := readObject_encode (fun field mem => reads_field encodable mem) [] enough
  have fields : ofList doc.toList = doc := Document.ext (SortedMap.ofList_entries doc.fields)
  rw [ofBlob, text, read, brace]
  dsimp only
  rw [if_pos rfl, members]
  simp only [bind, Except.bind, fields]
  rfl

/-- A blob that a document was written to holds that document. -/
theorem ofBlob_toBlob {doc : Document} {blob : Bytes} (written : doc.toBlob = .ok blob) :
    ofBlob blob = .ok doc := by
  have encodable := (exists_toBlob_iff doc).1 ⟨blob, written⟩
  rw [toBlob_of_encodable encodable] at written
  cases written
  exact ofBlob_display encodable

/-- Reading a blob tells which document it was written for. -/
theorem toBlob_injective {doc other : Document} {blob : Bytes} (written : doc.toBlob = .ok blob)
    (writtenToo : other.toBlob = .ok blob) : doc = other := by
  have reads := ofBlob_toBlob written
  rw [ofBlob_toBlob writtenToo, Except.ok.injEq] at reads
  exact reads.symm

/--
Blobs are written exactly for the documents whose doubles are numbers and whose fields nest no
deeper than the limit.  The blob of such a document reads as the document itself, down to the kinds
of its values and the bits of its doubles, so no two documents share a blob.
-/
theorem blob_exact (doc : Document) :
    ((∃ blob, doc.toBlob = .ok blob) ↔ ∀ value ∈ doc.fields.values,
      value.isFinite = true ∧ value.nesting ≤ Value.maxNesting) ∧
    ∀ blob, doc.toBlob = .ok blob →
      ofBlob blob = .ok doc ∧ ∀ other : Document, other.toBlob = .ok blob → other = doc := by
  refine ⟨exists_toBlob_iff doc, ?_⟩
  intro blob written
  exact ⟨ofBlob_toBlob written, fun other writtenToo => toBlob_injective writtenToo written⟩

end Folio.Document
