import Folio.Document.FieldTable
import Folio.Proofs.Document.Blob
import Mathlib.Data.List.Forall2

/-!
# Field tables read back

The text of a field reads as the value that it denotes, and any other text as itself.
So the text of each field has one reading, the value it was written for.  Strings
are the delicate case: a text stands as it is exactly if it does not read as some
other value, and no text denotes itself, since a literal is longer than its text.
-/

namespace Folio

open Json Text

namespace Value

/-! ## Denoted values -/

theorem parse?_ne_string_self (text : String) : parse? text ≠ some (string text) :=
  fun parsed => not_denotes_string_self text (parse?_eq_some_iff.1 parsed)

/-- No text is its own literal. -/
theorem print_string_ne (text : String) : (string text).toJson.print ≠ text := by
  intro same
  have parsed : parse? (string text).toJson.print = some (string text) :=
    parse?_print rfl (Nat.zero_le _)
  rw [same] at parsed
  exact parse?_ne_string_self text parsed

/--
The value of a field text is the value that the text denotes, or the text itself as a string if it
denotes none.
-/
theorem ofFieldText_eq_iff_denotes (text : String) (value : Value) :
    ofFieldText text = value ↔
      Denotes text value ∨ value = string text ∧ ∀ other, ¬Denotes text other := by
  rw [ofFieldText]
  cases parsed : parse? text with
  | some denoted =>
      have denotes := parse?_eq_some_iff.1 parsed
      rw [Option.getD_some]
      constructor
      · rintro rfl
        exact .inl denotes
      · rintro (same | ⟨-, none⟩)
        · exact Option.some.inj (parsed.symm.trans (parse?_eq_some_iff.2 same))
        · exact absurd denotes (none denoted)
  | none =>
      have none : ∀ other, ¬Denotes text other := by
        intro other denotes
        rw [parse?_eq_some_iff.2 denotes] at parsed
        cases parsed
      rw [Option.getD_none]
      constructor
      · rintro rfl
        exact .inr ⟨rfl, none⟩
      · rintro (denotes | ⟨rfl, -⟩)
        · exact absurd denotes (none value)
        · rfl

/-! ## One field -/

theorem toFieldText_of_obstacle {value : Value} {obstacle : Unencodable}
    (found : value.obstacle? 0 = some obstacle) : value.toFieldText = .error obstacle := by
  unfold toFieldText
  rw [found]

/-- The text of a string, quoted only if it denotes a value. -/
theorem toFieldText_string (text : String) :
    (string text).toFieldText =
      .ok (if (parse? text).isNone then text else (string text).toJson.print) := rfl

/-- A value without obstacle has a field text, which reads as the value. -/
theorem exists_toFieldText {value : Value} (free : value.obstacle? 0 = none) :
    ∃ text, value.toFieldText = .ok text ∧ ofFieldText text = value := by
  obtain ⟨finite, within⟩ := (obstacle?_eq_none_iff value (Nat.zero_le _)).1 free
  have limits : maxNesting ≤ maxOpen := by decide
  have printed : ofFieldText value.toJson.print = value := by
    rw [ofFieldText, parse?_print finite (by omega), Option.getD_some]
  cases value with
  | boolean _ => exact ⟨_, rfl, printed⟩
  | integer _ => exact ⟨_, rfl, printed⟩
  | float value =>
      refine ⟨(float value).toJson.print, ?_, printed⟩
      unfold toFieldText
      rw [free]
  | sequence items =>
      refine ⟨(sequence items).toJson.print, ?_, printed⟩
      unfold toFieldText
      rw [free]
  | string text =>
      rw [toFieldText_string]
      cases denoted : parse? text with
      | none =>
          refine ⟨text, rfl, ?_⟩
          rw [ofFieldText, denoted, Option.getD_none]
      | some other => exact ⟨_, rfl, printed⟩

/-- Field texts are written for values without obstacle only, and read as them. -/
theorem of_toFieldText {value : Value} {text : String} (written : value.toFieldText = .ok text) :
    value.obstacle? 0 = none ∧ ofFieldText text = value := by
  cases obstacle : value.obstacle? 0 with
  | some fault =>
      rw [toFieldText_of_obstacle obstacle] at written
      cases written
  | none =>
      obtain ⟨other, writtenToo, reads⟩ := exists_toFieldText obstacle
      rw [written] at writtenToo
      cases writtenToo
      exact ⟨rfl, reads⟩

/-- A string stands as it is iff its text does not read as some other value. -/
theorem toFieldText_string_eq_self_iff (text : String) :
    (string text).toFieldText = .ok text ↔ ofFieldText text = string text := by
  rw [toFieldText_string, ofFieldText]
  cases denoted : parse? text with
  | none => simp
  | some other =>
      have quoted : (string text).toJson.print ≠ text := print_string_ne text
      have different : other ≠ string text := by
        rintro rfl
        exact parse?_ne_string_self text denoted
      simp [quoted, different]

end Value

namespace Document

/-! ## The table of a document -/

def WrittenAs (field : String × Value) (entry : String × String) : Prop :=
  entry.1 = field.1 ∧ field.2.toFieldText = .ok entry.2

/-- The table of a list of fields holds what each of them is written as, in their order. -/
theorem fieldTexts_eq_ok_iff (fields : List (String × Value)) (table : List (String × String)) :
    fieldTexts fields = .ok table ↔ List.Forall₂ WrittenAs fields table := by
  induction fields generalizing table with
  | nil =>
      rw [fieldTexts, List.forall₂_nil_left_iff, Except.ok.injEq]
      exact eq_comm
  | cons field rest ih =>
      obtain ⟨name, value⟩ := field
      rw [fieldTexts, List.forall₂_cons_left_iff]
      constructor
      · intro written
        cases first : value.toFieldText with
        | error obstacle =>
            rw [first] at written
            cases written
        | ok text =>
            cases more : fieldTexts rest with
            | error obstacle =>
                rw [first, more] at written
                cases written
            | ok texts =>
                rw [first, more] at written
                cases written
                exact ⟨(name, text), texts, ⟨rfl, first⟩, (ih texts).1 more, rfl⟩
      · rintro ⟨⟨other, text⟩, texts, ⟨rfl, first⟩, others, rfl⟩
        rw [first, (ih texts).2 others]
        rfl

/-- The first obstacle among the fields is what refuses them a table. -/
theorem fieldTexts_of_obstacle {fields : List (String × Value)} {obstacle : Unencodable}
    (found : Value.itemsObstacle? 0 (fields.map (·.2)) = some obstacle) :
    fieldTexts fields = .error obstacle := by
  induction fields with
  | nil => cases found
  | cons field rest ih =>
      obtain ⟨name, value⟩ := field
      rw [List.map_cons, Value.itemsObstacle?] at found
      rw [fieldTexts]
      cases first : value.obstacle? 0 with
      | some fault =>
          rw [first, Option.some_or] at found
          cases found
          rw [Value.toFieldText_of_obstacle first]
          rfl
      | none =>
          rw [first, Option.none_or] at found
          obtain ⟨text, written, -⟩ := Value.exists_toFieldText first
          rw [written, ih found]
          rfl

theorem exists_fieldTexts {fields : List (String × Value)}
    (free : ∀ field ∈ fields, field.2.obstacle? 0 = none) :
    ∃ table, fieldTexts fields = .ok table := by
  induction fields with
  | nil => exact ⟨[], rfl⟩
  | cons field rest ih =>
      obtain ⟨text, written, -⟩ := Value.exists_toFieldText (free field List.mem_cons_self)
      obtain ⟨table, more⟩ := ih fun other mem => free other (List.mem_cons_of_mem field mem)
      refine ⟨(field.1, text) :: table, ?_⟩
      rw [fieldTexts, written, more]
      rfl

/-- Every text of a table reads as the field it was written for. -/
theorem map_ofFieldText {fields : List (String × Value)} {table : List (String × String)}
    (written : List.Forall₂ WrittenAs fields table) :
    table.map (fun (name, text) => (name, Value.ofFieldText text)) = fields := by
  induction written with
  | nil => rfl
  | @cons field entry fields table head _ ih =>
      obtain ⟨name, value⟩ := field
      obtain ⟨other, text⟩ := entry
      obtain ⟨rfl, asText⟩ := head
      have reads : Value.ofFieldText text = value := (Value.of_toFieldText asText).2
      rw [List.map_cons, ih]
      dsimp only
      rw [reads]

theorem exists_field_of_mem {fields : List (String × Value)} {table : List (String × String)}
    (written : List.Forall₂ WrittenAs fields table) {entry : String × String}
    (mem : entry ∈ table) : ∃ field ∈ fields, WrittenAs field entry := by
  induction written with
  | nil => cases mem
  | @cons field first fields table head _ ih =>
      cases mem with
      | head => exact ⟨field, List.mem_cons_self, head⟩
      | tail _ mem =>
          obtain ⟨other, among, asText⟩ := ih mem
          exact ⟨other, List.mem_cons_of_mem field among, asText⟩

/-! ## Documents -/

theorem toFieldTable_of_obstacle {doc : Document} {obstacle : Unencodable}
    (found : doc.obstacle? = some obstacle) : doc.toFieldTable = .error obstacle :=
  fieldTexts_of_obstacle found

/-- A document has a table iff its fields have encoded forms. -/
theorem exists_toFieldTable_iff (doc : Document) :
    (∃ table, doc.toFieldTable = .ok table) ↔ doc.Encodable := by
  rw [← obstacle?_eq_none_iff]
  constructor
  · rintro ⟨table, written⟩
    cases obstacle : doc.obstacle? with
    | none => rfl
    | some fault =>
        rw [toFieldTable_of_obstacle obstacle] at written
        cases written
  · intro free
    refine exists_fieldTexts fun field mem => ?_
    exact (Value.itemsObstacle?_eq_none_iff_forall _ _).1 free field.2 (mem_values_of_mem_toList mem)

/-- The table and the blob of a document are refused for the same obstacle. -/
theorem toFieldTable_eq_error_iff (doc : Document) (obstacle : Unencodable) :
    doc.toFieldTable = .error obstacle ↔ doc.toBlob = .error obstacle := by
  cases found : doc.obstacle? with
  | some fault => rw [toFieldTable_of_obstacle found, toBlob, found]; simp
  | none =>
      have encodable := (obstacle?_eq_none_iff doc).1 found
      obtain ⟨table, written⟩ := (exists_toFieldTable_iff doc).2 encodable
      rw [written, toBlob_of_encodable encodable]
      constructor <;> rintro ⟨⟩

theorem forall₂_writtenAs {doc : Document} {table : List (String × String)}
    (written : doc.toFieldTable = .ok table) : List.Forall₂ WrittenAs doc.toList table :=
  (fieldTexts_eq_ok_iff doc.toList table).1 written

/-- A table that a document was written to reads as that document. -/
theorem ofFieldTable_toFieldTable {doc : Document} {table : List (String × String)}
    (written : doc.toFieldTable = .ok table) : ofFieldTable table = doc := by
  rw [ofFieldTable, map_ofFieldText (forall₂_writtenAs written)]
  exact Document.ext (SortedMap.ofList_entries doc.fields)

/-- The entry under the name of a field is what the field is written as. -/
theorem toFieldText_of_mem {doc : Document} {table : List (String × String)}
    (written : doc.toFieldTable = .ok table) {name text : String} {value : Value}
    (field : (name, value) ∈ doc.toList) (entry : (name, text) ∈ table) :
    value.toFieldText = .ok text := by
  obtain ⟨⟨other, found⟩, mem, same, asText⟩ := exists_field_of_mem (forall₂_writtenAs written) entry
  change name = other at same
  subst same
  have holds := (SortedMap.get?_eq_some_iff doc.fields name value).2 field
  have holdsToo := (SortedMap.get?_eq_some_iff doc.fields name found).2 mem
  rw [holds, Option.some.injEq] at holdsToo
  subst holdsToo
  exact asText

/-- A string field stands as it is in a table iff its text does not read as some other value. -/
theorem entry_eq_text_iff {doc : Document} {table : List (String × String)}
    (written : doc.toFieldTable = .ok table) {name text entry : String}
    (field : (name, Value.string text) ∈ doc.toList) (mem : (name, entry) ∈ table) :
    entry = text ↔ Value.ofFieldText text = .string text := by
  have asText := toFieldText_of_mem written field mem
  rw [← Value.toFieldText_string_eq_self_iff, asText, Except.ok.injEq]

/--
Field tables and blobs are written for the same documents, those whose doubles are numbers and
whose fields nest no deeper than the limit.  A table keeps the names in order, each of its texts
reads as the value it was written for, and the whole reads as the document.  A string stands as it
is exactly if its text does not read as some other value.
-/
theorem fieldTable_exact (doc : Document) :
    ((∃ table, doc.toFieldTable = .ok table) ↔ ∃ blob, doc.toBlob = .ok blob) ∧
    ((∃ table, doc.toFieldTable = .ok table) ↔ ∀ value ∈ doc.fields.values,
      value.isFinite = true ∧ value.nesting ≤ Value.maxNesting) ∧
    (∀ obstacle, doc.toFieldTable = .error obstacle ↔ doc.toBlob = .error obstacle) ∧
    ∀ table, doc.toFieldTable = .ok table →
      ofFieldTable table = doc ∧
      table.map (fun (name, text) => (name, Value.ofFieldText text)) = doc.toList ∧
      ∀ name text entry, (name, Value.string text) ∈ doc.toList → (name, entry) ∈ table →
        Value.ofFieldText entry = .string text ∧
        (entry = text ↔ Value.ofFieldText text = .string text) := by
  have encodable := exists_toFieldTable_iff doc
  refine ⟨encodable.trans (exists_toBlob_iff doc).symm, encodable, toFieldTable_eq_error_iff doc, ?_⟩
  intro table written
  refine ⟨ofFieldTable_toFieldTable written, map_ofFieldText (forall₂_writtenAs written), ?_⟩
  intro name text entry field mem
  have asText := toFieldText_of_mem written field mem
  exact ⟨(Value.of_toFieldText asText).2, entry_eq_text_iff written field mem⟩

end Document

end Folio
