import Mathlib.Data.List.Induction
import Folio.Document
import Folio.Proofs.SortedMap

/-!
# Documents that are edited

Whatever is done to the fields of a document that was empty at first, each field reads
as a list of values that every edit of the field revises and no other edit touches.
Readers see neither whether a single value was set or appended nor how the list came
about; only whether a field exists is told apart from whether its list has values.
-/

namespace Folio

inductive Edit where
  | set (field : String) (value : Value)
  | add (field : String) (value : Value)
  | addAll (field : String) (extra : List Value)
  | remove (field : String)

namespace Document

/-- The values of a field are told by what it holds. -/
theorem values_eq (doc : Document) (field : String) :
    doc.values field = ((doc.get? field).map Value.items).getD [] := by
  rw [values, get?]
  cases doc.fields.get? field <;> rfl

theorem get?_set (doc : Document) (field other : String) (value : Value) :
    (doc.set field value).get? other = if field = other then some value else doc.get? other :=
  SortedMap.get?_insert doc.fields field other value

theorem get?_remove (doc : Document) (field other : String) :
    (doc.remove field).get? other = if field = other then none else doc.get? other :=
  SortedMap.get?_erase doc.fields field other

end Document

namespace Edit

def field : Edit → String
  | set field _ | add field _ | addAll field _ | remove field => field

def isRemoval : Edit → Bool
  | remove _ => true
  | set _ _ | add _ _ | addAll _ _ => false

def apply (doc : Document) : Edit → Document
  | set field value => doc.set field value
  | add field value => doc.add field value
  | addAll field extra => doc.addAll field extra
  | remove field => doc.remove field

def revise (values : List Value) : Edit → List Value
  | set _ (.sequence items) => items
  | set _ scalar => [scalar]
  | add _ value => values ++ [value]
  | addAll _ extra => values ++ extra
  | remove _ => []

/-- The list of values that edits make for a field, which is empty at first. -/
def listOf (field : String) (edits : List Edit) : List Value :=
  edits.foldl (fun values edit => if edit.field = field then edit.revise values else values) []

/-- Whether some edit touched a field and the field was not removed since. -/
def Touched (field : String) (edits : List Edit) : Prop :=
  ∃ before edit after, edits = before ++ edit :: after ∧
    edit.field = field ∧ edit.isRemoval = false ∧ ∀ later ∈ after, later ≠ remove field

def document (edits : List Edit) : Document := edits.foldl apply .empty

/-! ## One edit -/

section Apply

variable (doc : Document) (edit : Edit)

/-- An edit leaves the other fields alone. -/
theorem get?_apply_of_ne {field : String} (other : edit.field ≠ field) :
    (edit.apply doc).get? field = doc.get? field := by
  cases edit with
  | set | add | addAll => exact (doc.get?_set _ _ _).trans (if_neg other)
  | remove => exact (doc.get?_remove _ _).trans (if_neg other)

/-- What an edited field holds, a value or nothing. -/
theorem get?_apply : (edit.apply doc).get? edit.field =
    match edit with
    | set _ value => some value
    | add field value => some (.sequence (doc.values field ++ [value]))
    | addAll field extra => some (.sequence (doc.values field ++ extra))
    | remove _ => none := by
  cases edit with
  | set | add | addAll => exact (doc.get?_set _ _ _).trans (if_pos rfl)
  | remove => exact (doc.get?_remove _ _).trans (if_pos rfl)

/-- An edited field is there unless it was removed. -/
theorem isSome_get?_apply : ((edit.apply doc).get? edit.field).isSome = !edit.isRemoval := by
  rw [get?_apply]
  cases edit <;> rfl

/-- An edit revises the values of its field. -/
theorem values_apply : (edit.apply doc).values edit.field = edit.revise (doc.values edit.field) := by
  rw [Document.values_eq, get?_apply]
  cases edit with
  | set field value => cases value <;> rfl
  | add | addAll | remove => rfl

end Apply

/-! ## Many edits -/

section Append

variable (field : String) (edits : List Edit) (last : Edit)

theorem document_append : document (edits ++ [last]) = last.apply (document edits) := by
  rw [document, List.foldl_append]
  rfl

theorem listOf_append : listOf field (edits ++ [last]) =
    if last.field = field then last.revise (listOf field edits) else listOf field edits := by
  rw [listOf, List.foldl_append]
  rfl

variable {field edits last}

theorem touched_append_self (own : last.field = field) :
    Touched field (edits ++ [last]) ↔ last.isRemoval = false := by
  constructor
  · rintro ⟨before, edit, after, cut, -, kept, spared⟩
    obtain rfl | ⟨after, final, rfl⟩ := List.eq_nil_or_concat after
    · obtain ⟨-, same⟩ := List.append_inj' cut rfl
      obtain rfl := List.singleton_inj.1 same
      exact kept
    · rw [List.concat_eq_append, ← List.cons_append, ← List.append_assoc] at cut
      obtain ⟨-, same⟩ := List.append_inj' cut rfl
      obtain rfl := List.singleton_inj.1 same
      have notRemoved := spared last (by simp)
      cases last with
      | remove name => exact absurd (congrArg remove own) notRemoved
      | set | add | addAll => rfl
  · exact fun kept => ⟨edits, last, [], rfl, own, kept, fun _ => nofun⟩

/-- Whether a field was touched does not depend on a later edit of another field. -/
theorem touched_append_of_ne (other : last.field ≠ field) :
    Touched field (edits ++ [last]) ↔ Touched field edits := by
  constructor
  · rintro ⟨before, edit, after, cut, own, kept, spared⟩
    obtain rfl | ⟨after, final, rfl⟩ := List.eq_nil_or_concat after
    · obtain ⟨-, same⟩ := List.append_inj' cut rfl
      obtain rfl := List.singleton_inj.1 same
      exact absurd own other
    · rw [List.concat_eq_append] at cut spared
      rw [← List.cons_append, ← List.append_assoc] at cut
      obtain ⟨rfl, -⟩ := List.append_inj' cut rfl
      exact ⟨before, edit, after, rfl, own, kept, fun later mem =>
        spared later (List.mem_append_left _ mem)⟩
  · rintro ⟨before, edit, after, rfl, own, kept, spared⟩
    refine ⟨before, edit, after ++ [last], by simp, own, kept, fun later mem => ?_⟩
    obtain mem | mem := List.mem_append.1 mem
    · exact spared later mem
    · obtain rfl := List.mem_singleton.1 mem
      rintro rfl
      exact other rfl

end Append

theorem values_document (field : String) (edits : List Edit) :
    (document edits).values field = listOf field edits := by
  induction edits using List.reverseRecOn with
  | nil => rfl
  | append_singleton edits last ih =>
      rw [document_append, listOf_append]
      by_cases own : last.field = field
      · subst own
        rw [if_pos rfl, values_apply, ih]
      · rw [if_neg own, ← ih, Document.values_eq, get?_apply_of_ne _ _ own, ← Document.values_eq]

theorem contains_document_iff (field : String) (edits : List Edit) :
    (document edits).contains field = true ↔ Touched field edits := by
  change ((document edits).get? field).isSome = true ↔ _
  induction edits using List.reverseRecOn with
  | nil =>
      constructor
      · rintro ⟨⟩
      · rintro ⟨before, edit, after, cut, -⟩
        simp at cut
  | append_singleton edits last ih =>
      rw [document_append]
      by_cases own : last.field = field
      · subst own
        rw [isSome_get?_apply, touched_append_self rfl, Bool.not_eq_true']
      · rw [get?_apply_of_ne _ _ own, touched_append_of_ne own, ih]

end Edit

namespace Document

variable (doc : Document)

theorem mem_names_iff (field : String) : field ∈ doc.names ↔ doc.contains field = true :=
  doc.fields.mem_keys_iff field

/-- The names stand in the order of their bytes, each of them once. -/
theorem names_inOrder : doc.names.Pairwise fun a b => Text.utf8 a < Text.utf8 b :=
  List.pairwise_map.2 doc.fields.entries_inOrder

/-- The size of a document is the number of its fields. -/
theorem size_eq_ncard : doc.size = {field | doc.contains field = true}.ncard :=
  doc.fields.size_eq_ncard

end Document

open Edit

/--
A document that was empty at first reads as a list for each field: what was set, set alone or as a
sequence, and what was appended since, until the field is removed.  A field exists iff some edit
touched it, be it with no value at all, and it was not removed since; the size counts these fields
and the names list them in the order of their bytes.  No edit changes another field.
-/
theorem edited_fields_read_as_lists (edits : List Edit) :
    (∀ field,
      (document edits).values field = listOf field edits ∧
      (document edits).first? field = (listOf field edits).head? ∧
      ((document edits).contains field = true ↔ Touched field edits)) ∧
    (document edits).size = {field | Touched field edits}.ncard ∧
    (∀ field, field ∈ (document edits).names ↔ Touched field edits) ∧
    ((document edits).names.Pairwise fun a b => Text.utf8 a < Text.utf8 b) ∧
    ∀ (edit : Edit) (field : String), edit.field ≠ field →
      (edit.apply (document edits)).get? field = (document edits).get? field := by
  refine ⟨fun field => ⟨values_document field edits, ?_, contains_document_iff field edits⟩, ?_,
    fun field => ?_, (document edits).names_inOrder, fun edit field other =>
      edit.get?_apply_of_ne (document edits) other⟩
  · rw [Document.first?, values_document]
  · rw [Document.size_eq_ncard]
    simp only [contains_document_iff]
  · rw [Document.mem_names_iff, contains_document_iff]

/-- A sequence that is set is the list, and a sequence that is added is one value of it. -/
example : listOf "x"
    [.set "x" (.sequence []), .add "x" (.sequence [.boolean true]), .addAll "y" [], .addAll "x" []] =
      [.sequence [.boolean true]] := rfl

end Folio
