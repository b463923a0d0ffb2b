import Folio.Proofs.Value.Grammar

/-!
# Values read back

The JSON text of a value whose doubles are numbers reads as the value, of the same
kind and with the same bits, if the reader may open as many arrays as are nested
in the value.
-/

namespace Folio

open Json Text

namespace Value

/-- A double that is a number is written as one. -/
theorem exists_writtenNumber_of_isFinite {value : Binary64} (finite : value.isFinite = true) :
    ∃ number : WrittenNumber, number.chars = (Json.float value).chars ∧
      number.numeral.toJson? = some (.float value) := by
  cases value with
  | nan => exact absurd finite Bool.false_ne_true
  | signed negative magnitude =>
      rw [chars]
      exact exists_writtenNumber_float negative finite

mutual

/-- The text of a value is one that may be written for it. -/
theorem writes_chars (value : Value) (finite : value.isFinite = true) :
    Writes value.toJson.chars value := by
  have number : ∀ (written : WrittenNumber) (value : Value),
      written.numeral.toJson? = some value.toJson → Writes written.chars value :=
    fun written value json => .number ((written.toJson?_numeral_eq_some_iff value).1 json)
  cases value with
  | boolean value =>
      cases value with
      | true => exact .yes
      | false => exact .no
  | integer value =>
      obtain ⟨written, text, json⟩ := exists_writtenNumber_integer value
      rw [toJson, chars, ← text]
      exact number written (.integer value) json
  | float value =>
      obtain ⟨written, text, json⟩ := exists_writtenNumber_of_isFinite finite
      rw [toJson, ← text]
      exact number written (.float value) json
  | string value =>
      rw [toJson, chars, stringChars]
      exact .string (literalText_escaped value.toList)
  | sequence items =>
      rw [toJson, chars]
      have inside := itemsText_itemChars items finite
      cases items with
      | nil =>
          rw [itemsToJson, itemChars]
          exact .sequence (.empty (List.forall_mem_nil _))
      | cons item rest => exact .sequence (.items (inside (List.cons_ne_nil item rest)))

/-- The texts of items are joined by commas without blank space. -/
theorem itemsText_itemChars (items : List Value) (finite : itemsFinite items = true)
    (nonempty : items ≠ []) : ItemsText Writes (itemChars (itemsToJson items)) items := by
  have noBlank : Blank [] := List.forall_mem_nil _
  cases items with
  | nil => exact absurd rfl nonempty
  | cons item rest =>
      rw [itemsFinite, Bool.and_eq_true] at finite
      have first := writes_chars item finite.1
      have more := itemsText_itemChars rest finite.2
      cases rest with
      | nil =>
          have last := ItemsText.last noBlank first noBlank
          rw [itemsToJson, itemsToJson, itemChars]
          rwa [List.append_nil] at last
      | cons next others =>
          have written := more (List.cons_ne_nil next others)
          rw [itemsToJson] at written ⊢
          rw [itemsToJson, itemChars]
          · exact .more noBlank first noBlank written
          · exact List.cons_ne_nil _ _

end

/-- A value whose doubles are numbers is read back, be it in a field of a document. -/
theorem reads_chars {value : Value} (finite : value.isFinite = true) {depth : Nat}
    (within : value.nesting ≤ depth) :
    Reads (read depth) (encode value.toJson.chars) value := fun rest ends =>
  read_eq_ok_iff.2 (reads_of_writes (writes_chars value finite) within rest ends)

/-- A value whose doubles are numbers is what its whole text denotes. -/
theorem parse?_print {value : Value} (finite : value.isFinite = true)
    (within : value.nesting ≤ maxOpen) : parse? value.toJson.print = some value := by
  have noBlank : Blank [] := List.forall_mem_nil _
  refine parse?_eq_some_iff.2
    ⟨[], value.toJson.chars, [], ?_, noBlank, noBlank, writes_chars value finite, within⟩
  rw [print, String.toList_ofList, List.nil_append, List.append_nil]

end Value

end Folio
