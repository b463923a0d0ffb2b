import Folio.Proofs.Document.FieldTable

/-!
# Documents merged and restricted

Two documents are merged field by field, and the later one counts where both have a
field.  Writing texts on top of a field table is writing the merged document, and
the texts found for some names are those of the document restricted to the names.
-/

namespace Folio

namespace SortedMap

variable {α β : Type}

theorem lookupIn_map (read : α → β) (key : String) (entries : List (String × α)) :
    lookupIn key (entries.map fun (name, value) => (name, read value)) =
      (lookupIn key entries).map read := by
  induction entries with
  | nil => rfl
  | cons entry rest ih =>
      obtain ⟨name, value⟩ := entry
      rw [List.map_cons, lookupIn, lookupIn, ih]
      split <;> rfl

/-- Among entries that are looked up by name, each of the names has what was looked up for it. -/
theorem get?_ofList_filterMap (look : String → Option α) (names : List String) (key : String) :
    (ofList (names.filterMap fun name => (look name).map (name, ·))).get? key =
      if key ∈ names then look key else none := by
  induction names with
  | nil => rfl
  | cons name rest ih =>
      cases found : look name with
      | none =>
          rw [List.filterMap_cons, found, Option.map_none, ih]
          by_cases same : key = name
          · subst same
            rw [found, ite_self, ite_self]
          · simp only [List.mem_cons, same, false_or]
      | some value =>
          rw [List.filterMap_cons, found, Option.map_some]
          change ((empty.insert name value).insertMany _).get? key = _
          rw [get?_insertMany, ih, get?_insert, get?_empty]
          by_cases same : name = key
          · subst same
            rw [if_pos rfl, if_pos List.mem_cons_self, found]
            split <;> rfl
          · have among : key ∈ name :: rest ↔ key ∈ rest := by simp [Ne.symm same]
            rw [if_neg same, Option.or_none]
            simp only [among]

end SortedMap

namespace Document

/-- The fields of two documents; where both have one, that of the second. -/
def merge (doc extra : Document) : Document := ⟨doc.fields.insertMany extra.toList⟩

/-- The fields of a document that are among some names. -/
def restrict (doc : Document) (names : List String) : Document :=
  ⟨doc.fields.filter fun name _ => name ∈ names⟩

theorem ext_get? {doc other : Document} (same : ∀ field, doc.get? field = other.get? field) :
    doc = other :=
  Document.ext (SortedMap.ext_get? same)

theorem get?_merge (doc extra : Document) (field : String) :
    (doc.merge extra).get? field = (extra.get? field).or (doc.get? field) :=
  SortedMap.get?_insertMany_entries doc.fields extra.fields field

theorem empty_merge (doc : Document) : empty.merge doc = doc :=
  Document.ext (SortedMap.ofList_entries doc.fields)

theorem get?_restrict (doc : Document) (names : List String) (field : String) :
    (doc.restrict names).get? field = if field ∈ names then doc.get? field else none := by
  rw [get?, restrict, SortedMap.get?_filter, get?]
  cases doc.fields.get? field with
  | none => rw [Option.filter_none, ite_self]
  | some value => rw [Option.filter_some]; simp only [decide_eq_true_eq]

/-! ## Tables of merged documents -/

/-- Writing the text of a field into a table is writing the field. -/
theorem forall₂_insertIn {fields : List (String × Value)} {table : List (String × String)}
    (written : List.Forall₂ WrittenAs fields table) {name text : String} {value : Value}
    (asText : value.toFieldText = .ok text) :
    List.Forall₂ WrittenAs (SortedMap.insertIn name value fields)
      (SortedMap.insertIn name text table) := by
  induction written with
  | nil => exact .cons ⟨rfl, asText⟩ .nil
  | @cons field entry fields table head tail ih =>
      obtain ⟨other, old⟩ := field
      obtain ⟨_, oldText⟩ := entry
      obtain ⟨rfl, oldAsText⟩ := head
      rw [SortedMap.insertIn, SortedMap.insertIn]
      dsimp only
      split
      · exact .cons ⟨rfl, asText⟩ (.cons ⟨rfl, oldAsText⟩ tail)
      · split
        · exact .cons ⟨rfl, asText⟩ tail
        · exact .cons ⟨rfl, oldAsText⟩ ih

theorem forall₂_insertMany {fields : SortedMap Value} {hash : SortedMap String}
    (written : List.Forall₂ WrittenAs fields.entries hash.entries) {extra : List (String × Value)}
    {texts : List (String × String)} (more : List.Forall₂ WrittenAs extra texts) :
    List.Forall₂ WrittenAs (fields.insertMany extra).entries (hash.insertMany texts).entries := by
  induction more generalizing fields hash with
  | nil => exact written
  | @cons field entry extra texts head _ ih =>
      obtain ⟨name, value⟩ := field
      obtain ⟨_, text⟩ := entry
      obtain ⟨rfl, asText⟩ := head
      exact ih (forall₂_insertIn written asText)

/-- Writing the table of a document on top of another table is writing the merged document. -/
theorem toFieldTable_merge {doc extra : Document} {hash : SortedMap String}
    {texts : List (String × String)} (written : doc.toFieldTable = .ok hash.entries)
    (more : extra.toFieldTable = .ok texts) :
    (doc.merge extra).toFieldTable = .ok (hash.insertMany texts).entries :=
  (fieldTexts_eq_ok_iff _ _).2
    (forall₂_insertMany (forall₂_writtenAs written) (forall₂_writtenAs more))

theorem toFieldTable_empty : empty.toFieldTable = .ok (SortedMap.empty : SortedMap String).entries :=
  rfl

/-- Only the empty document has an empty table. -/
theorem isEmpty_table {doc : Document} {table : List (String × String)}
    (written : doc.toFieldTable = .ok table) : table.isEmpty = doc.isEmpty := by
  have entries := forall₂_writtenAs written
  change table.isEmpty = doc.toList.isEmpty
  generalize doc.toList = fields at entries
  cases entries <;> rfl

/-! ## Reading single fields -/

/-- The text under a name reads as the field of that name. -/
theorem map_ofFieldText_get? {doc : Document} {hash : SortedMap String}
    (written : doc.toFieldTable = .ok hash.entries) (field : String) :
    (hash.get? field).map Value.ofFieldText = doc.get? field := by
  have fields := map_ofFieldText (forall₂_writtenAs written)
  rw [SortedMap.get?, ← SortedMap.lookupIn_map, fields]
  rfl

/-- The texts under some names read as the document restricted to them. -/
theorem ofFieldTable_filterMap {doc : Document} {hash : SortedMap String}
    (written : doc.toFieldTable = .ok hash.entries) (names : List String) :
    ofFieldTable (names.filterMap fun name => (hash.get? name).map (name, ·)) =
      doc.restrict names := by
  have read : (names.filterMap fun name => (hash.get? name).map (name, ·)).map
      (fun field => (field.1, Value.ofFieldText field.2)) =
        names.filterMap fun name => (doc.get? name).map (name, ·) := by
    rw [List.map_filterMap]
    refine List.filterMap_congr fun name _ => ?_
    rw [← map_ofFieldText_get? written name, Option.map_map, Option.map_map]
    rfl
  refine ext_get? fun field => ?_
  rw [get?_restrict, ofFieldTable, read]
  exact SortedMap.get?_ofList_filterMap doc.get? names field

end Document

end Folio
