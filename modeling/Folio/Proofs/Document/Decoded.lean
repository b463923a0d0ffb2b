import Folio.Proofs.Document.FieldTable

/-!
# Documents that were read

A reader yields no double that is not a number, whatever bytes it reads.  So a document
that was read has an encoded form unless a field nests too deep, and what it is written
as reads as the document.  Reading and writing again settles a blob or a table: numbers
are respelled, blank space goes, and of several fields of a name the last one stays, but
nothing changes the second time.
-/

namespace Folio

open Json Text

namespace Value

/-! ## Doubles that are read -/

/-- A written number denotes no double that is not a number. -/
theorem isFinite_of_toJson? {numeral : Numeral} {value : Value}
    (known : numeral.toJson? = some value.toJson) : value.isFinite = true := by
  unfold Numeral.toJson? at known
  split at known
  · have integer := ofJson?_eq_some_iff.2 (Option.some.inj known)
    rw [ofJson?] at integer
    cases integer
    rfl
  · split at known
    · rename_i finite
      have double := ofJson?_eq_some_iff.2 (Option.some.inj known)
      rw [ofJson?] at double
      cases double
      exact finite
    · cases known

/-- No double in a value that is read is infinite or not a number, however deep it stands. -/
theorem isFinite_of_readValue {depth : Nat} {bytes rest : Bytes} {value : Value}
    (read : readValue depth bytes = .ok (value.toJson, rest)) : value.isFinite = true := by
  induction depth using Nat.strongRecOn generalizing bytes rest value with
  | ind depth ih =>
      obtain ⟨b, more, -, valueRead⟩ := of_readValue read
      generalize form : value.toJson = json at valueRead
      have known := ofJson?_eq_some_iff.2 form.symm
      cases valueRead with
      | null | object => cases known
      | yes | no | string =>
          rw [ofJson?] at known
          cases known
          rfl
      | number numeral toJson =>
          rw [← form] at toJson
          exact isFinite_of_toJson? toJson
      | @array inner items deeper array =>
          rw [ofJson?] at known
          obtain ⟨values, inside, rfl⟩ := Option.map_eq_some_iff.1 known
          -- What holds of an item is a fact about its JSON form, which is all that the loop shows.
          have each : ∀ {bytes item rest}, readValue inner bytes = .ok (item, rest) →
              ∀ value : Value, item = value.toJson → value.isFinite = true := by
            rintro bytes _ rest itemRead value rfl
            exact ih inner (deeper ▸ Nat.lt_succ_self inner) itemRead
          have all := forall_of_readArray each array
          rw [eq_itemsToJson_of_itemsOfJson? _ inside, itemsToJson_eq_map] at all
          rw [isFinite, itemsFinite_iff]
          exact fun item mem => all _ (List.mem_map_of_mem mem) item rfl

theorem isFinite_of_read {depth : Nat} {bytes rest : Bytes} {value : Value}
    (done : read depth bytes = .ok (value, rest)) : value.isFinite = true :=
  isFinite_of_readValue (read_eq_ok_iff.1 done)

/-- A field text reads as a value whose doubles are numbers, be it as the string that it is. -/
theorem isFinite_ofFieldText (text : String) : (ofFieldText text).isFinite = true := by
  rw [ofFieldText]
  cases parsed : parse? text with
  | none => rfl
  | some value =>
      obtain ⟨rest, read, -⟩ := parse?_eq_some_iff_read.1 parsed
      exact isFinite_of_readValue read

end Value

namespace Document

def IsFinite (doc : Document) : Prop := ∀ value ∈ doc.fields.values, value.isFinite = true

theorem isFinite_ofList {fields : List (String × Value)}
    (each : ∀ field ∈ fields, field.2.isFinite = true) : (ofList fields).IsFinite := by
  intro value mem
  obtain ⟨field, entry, rfl⟩ := List.mem_map.1 mem
  exact each field (SortedMap.mem_of_mem_ofList entry)

theorem isFinite_of_ofBlob {blob : Bytes} {doc : Document} (done : ofBlob blob = .ok doc) :
    doc.IsFinite := by
  obtain ⟨rest, done, -⟩ := Value.finish_eq_ok_iff.1 done
  unfold read at done
  split at done
  · cases done
  · split at done
    · obtain ⟨⟨fields, _⟩, object, ⟨⟩⟩ := bind_eq_ok_iff.1 done
      exact isFinite_ofList (forall_of_readObject Value.isFinite_of_read object)
    · cases done

theorem isFinite_ofFieldTable (entries : List (String × String)) :
    (ofFieldTable entries).IsFinite := by
  refine isFinite_ofList fun field mem => ?_
  obtain ⟨⟨name, text⟩, -, rfl⟩ := List.mem_map.1 mem
  exact Value.isFinite_ofFieldText text

/-! ## Writing again -/

/-- Whether no field nests sequences beyond the limit. -/
def IsShallow (doc : Document) : Prop :=
  ∀ value ∈ doc.fields.values, value.nesting ≤ Value.maxNesting

/-- Where all doubles are numbers, a document is encodable iff it does not nest too deep. -/
theorem IsFinite.encodable_iff {doc : Document} (finite : doc.IsFinite) :
    doc.Encodable ↔ doc.IsShallow :=
  forall₂_congr fun value mem => and_iff_right (finite value mem)

/--
Whether all that can be wrong with writing a document is that it nests too deep, and whether it can
be told from whatever it is written as.
-/
structure Recodes (doc : Document) : Prop where
  finite : doc.IsFinite
  hasBlob : (∃ blob, doc.toBlob = .ok blob) ↔ doc.IsShallow
  hasTable : (∃ table, doc.toFieldTable = .ok table) ↔ doc.IsShallow
  blobRefused : ∀ obstacle, doc.toBlob = .error obstacle → obstacle = .tooDeep
  tableRefused : ∀ obstacle, doc.toFieldTable = .error obstacle → obstacle = .tooDeep
  ofBlob : ∀ blob, doc.toBlob = .ok blob → ofBlob blob = .ok doc
  ofTable : ∀ table, doc.toFieldTable = .ok table → ofFieldTable table = doc

theorem IsFinite.recodes {doc : Document} (finite : doc.IsFinite) : doc.Recodes := by
  have refused : ∀ obstacle, doc.toBlob = .error obstacle → obstacle = .tooDeep := by
    intro obstacle written
    unfold toBlob at written
    split at written
    · rename_i found
      cases written
      exact Value.eq_tooDeep_of_itemsObstacle? _ (Value.itemsFinite_iff.2 finite) found
    · cases written
  exact {
    finite
    hasBlob := (exists_toBlob_iff doc).trans finite.encodable_iff
    hasTable := (exists_toFieldTable_iff doc).trans finite.encodable_iff
    blobRefused := refused
    tableRefused := fun obstacle written =>
      refused obstacle ((toFieldTable_eq_error_iff doc obstacle).1 written)
    ofBlob := fun _ => ofBlob_toBlob
    ofTable := fun _ => ofFieldTable_toFieldTable }

/-- What becomes of a blob that is read and written again, if it is one and can be written. -/
def settledBlob? (blob : Bytes) : Option Bytes :=
  (ofBlob blob).toOption.bind fun doc => doc.toBlob.toOption

/-- What becomes of a table that is read and written again, if it can be written. -/
def settledTable? (entries : List (String × String)) : Option (List (String × String)) :=
  (ofFieldTable entries).toFieldTable.toOption

theorem settledBlob?_settled {blob again : Bytes} (settled : settledBlob? blob = some again) :
    settledBlob? again = some again := by
  obtain ⟨doc, -, written⟩ := Option.bind_eq_some_iff.1 settled
  refine Option.bind_eq_some_iff.2 ⟨doc, ?_, written⟩
  rw [toOption_eq_some_iff] at written ⊢
  exact ofBlob_toBlob written

theorem settledTable?_settled {entries again : List (String × String)}
    (settled : settledTable? entries = some again) : settledTable? again = some again := by
  have written := toOption_eq_some_iff.1 settled
  rw [settledTable?, ofFieldTable_toFieldTable written]
  exact settled

/--
Every document that is read, be it from any bytes or from any table, can be written as a blob and
as a table unless a field nests sequences beyond the limit, and it can be told from both of them.
So a blob or a table that was read and written once stays as it is when that is done again.
-/
theorem decoded_documents_recode :
    (∀ blob doc, ofBlob blob = .ok doc → doc.Recodes) ∧
    (∀ entries, (ofFieldTable entries).Recodes) ∧
    (∀ blob again, settledBlob? blob = some again → settledBlob? again = some again) ∧
    ∀ entries again, settledTable? entries = some again → settledTable? again = some again :=
  ⟨fun _ _ done => (isFinite_of_ofBlob done).recodes,
    fun entries => (isFinite_ofFieldTable entries).recodes,
    fun _ _ => settledBlob?_settled, fun _ _ => settledTable?_settled⟩

/-- Blank space, a repeated name, an escape, an exponent, a negative zero and a large integer. -/
theorem decoded_documents_recode_example :
    let blob := utf8 "\x7b\"a\" : 1, \"b\":[ -0, 1E2,9223372036854775808], \"a\":\"\\u0041\"\x7d"
    let again := utf8 "\x7b\"a\":\"A\",\"b\":[-0.0,100.0,9.223372036854776e+18]\x7d"
    (∃ doc, ofBlob blob = .ok doc ∧ doc.Recodes) ∧
      settledBlob? blob = some again ∧ settledBlob? again = some again := by
  intro blob again
  have settled : settledBlob? blob = some again := by decide +kernel
  obtain ⟨doc, done, -⟩ := Option.bind_eq_some_iff.1 settled
  have done := toOption_eq_some_iff.1 done
  exact ⟨⟨doc, done, decoded_documents_recode.1 blob doc done⟩, settled,
    decoded_documents_recode.2.2.1 blob again settled⟩

end Document

end Folio
