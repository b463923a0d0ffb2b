import Folio.Proofs.Access.Records
import Folio.Proofs.Document.FieldTable
import Folio.Proofs.Location.Pattern

/-!
# Checks of arguments

The check of an operation accepts exactly the arguments that are valid.  All others it
refuses as misuse, or for a document that has no encoded form; it is never broken off.
-/

namespace Folio

/-- Whether a failure blames the arguments of an operation. -/
def Failure.IsRefusal : Failure → Prop
  | misuse _ | unencodable _ => True
  | _ => False

theorem Failure.IsRefusal.answered {failure : Failure} (refusal : failure.IsRefusal) :
    failure.isBreakOff = false := by
  cases failure with
  | misuse | unencodable => rfl
  | _ => cases refusal

/-- Whether a check accepts what is valid, and refuses everything else. -/
structure Guards {α : Type} (valid : Prop) (check : Except Failure α) : Prop where
  passes : (∃ a, check = .ok a) ↔ valid
  refuses : ∀ failure, check = .error failure → failure.IsRefusal

namespace Guards

variable {α β : Type} {valid other : Prop} {check : Except Failure α}

theorem ok (a : α) : Guards True (.ok a) := ⟨⟨fun _ => trivial, fun _ => ⟨a, rfl⟩⟩, nofun⟩

theorem congr (guards : Guards valid check) (same : valid ↔ other) : Guards other check :=
  ⟨guards.passes.trans same, guards.refuses⟩

theorem rejecting {bad : Prop} [Decidable bad] {failure : Failure} (refusal : failure.IsRefusal) :
    Guards (¬bad) (if bad then .error failure else .ok ()) := by
  by_cases is : bad
  · rw [if_pos is]
    refine ⟨⟨nofun, fun good => absurd is good⟩, ?_⟩
    rintro _ ⟨⟩
    exact refusal
  · rw [if_neg is]
    exact (ok ()).congr ⟨fun _ => is, fun _ => trivial⟩

theorem mapError {ε : Type} {wrap : ε → Failure} {result : Except ε α}
    (passes : (∃ a, result = .ok a) ↔ valid) (refusal : ∀ e, (wrap e).IsRefusal) :
    Guards valid (result.mapError wrap) := by
  cases result with
  | ok a => exact (ok a).congr ⟨fun _ => passes.1 ⟨a, rfl⟩, fun _ => trivial⟩
  | error e =>
      refine ⟨⟨nofun, fun holds => ?_⟩, ?_⟩
      · obtain ⟨a, made⟩ := passes.2 holds
        cases made
      · rintro _ ⟨⟩
        exact refusal e

theorem bind (first : Guards valid check) {next : α → Except Failure β}
    (second : ∀ a, Guards other (next a)) : Guards (valid ∧ other) (check >>= next) := by
  cases check with
  | ok a => exact (second a).congr ⟨fun holds => ⟨first.passes.1 ⟨a, rfl⟩, holds⟩, And.right⟩
  | error failure =>
      refine ⟨⟨nofun, fun holds => ?_⟩, ?_⟩
      · obtain ⟨a, passed⟩ := first.passes.2 holds.1
        cases passed
      · rintro _ ⟨⟩
        exact first.refuses failure rfl

theorem map (guards : Guards valid check) (f : α → β) : Guards valid (check.map f) := by
  have same : check.map f = check >>= fun a => .ok (f a) := by cases check <;> rfl
  rw [same]
  exact (guards.bind fun a => ok (f a)).congr (iff_of_eq (and_true valid))

end Guards

/-! ## Names, keys and times to live -/

/-- Some schema has a name iff the name is valid. -/
theorem Schema.exists_ofText_iff (name : String) :
    (∃ schema, ofText name = .ok schema) ↔ ValidName name := by
  unfold ofText
  constructor
  · rintro ⟨schema, made⟩
    split at made
    · cases made
    · rename_i nonempty
      split at made
      · cases made
      · rename_i noColon
        exact ⟨nonempty, noColon⟩
  · rintro ⟨nonempty, noColon⟩
    rw [dif_neg nonempty, dif_neg noColon]
    exact ⟨_, rfl⟩

theorem guards_checkSchema (name : String) : Guards (ValidName name) (checkSchema name) :=
  .mapError (Schema.exists_ofText_iff name) fun _ => trivial

theorem guards_documentKey (schema : String) (location : Location) :
    Guards (ValidName schema) (documentKey schema location) :=
  ((guards_checkSchema schema).bind fun found => .ok (found.key location)).congr
    (iff_of_eq (and_true _))

theorem guards_checkTtl (ttl : Option Duration) :
    Guards (∀ d ∈ ttl, d.isZero = false) (checkTtl ttl) := by
  cases ttl with
  | none => exact (Guards.ok ()).congr ⟨fun _ => nofun, fun _ => trivial⟩
  | some d =>
      have positive : Guards (¬d.isZero = true) (checkTtl (some d)) := .rejecting trivial
      refine positive.congr ?_
      simp only [Option.mem_some_iff, forall_eq', Bool.not_eq_true]

theorem Lock.guards_checkKey (key : String) : Guards (key ≠ "") (checkKey key) := by
  have nonempty : Guards (¬key.isEmpty = true) (checkKey key) := .rejecting trivial
  exact nonempty.congr (not_congr String.isEmpty_iff)

theorem Lock.guards_check (key : String) (ttl : Duration) :
    Guards (key ≠ "" ∧ ttl.isZero = false) (check key ttl) := by
  have positive : Guards (¬ttl.isZero = true)
      (if ttl.isZero then .error (.misuse .zeroLockTtl) else .ok ()) := .rejecting trivial
  rw [Bool.not_eq_true] at positive
  exact (guards_checkKey key).bind fun _ => positive

/-! ## Documents -/

namespace Whole

variable (schema : String)

theorem guards_entry (location : Location) (doc : Document) :
    Guards (ValidName schema ∧ doc.Encodable) (entry schema location doc) := by
  apply (guards_documentKey schema location).bind
  intro key
  have encoded : Guards doc.Encodable (encode doc) :=
    .mapError (Document.exists_toBlob_iff doc) fun _ => trivial
  exact encoded.map (key, ·)

/-- A document that cannot be encoded has the whole batch refused, wherever it stands. -/
theorem guards_entries (docs : List (Location × Document)) :
    Guards (∀ entry ∈ docs, ValidName schema ∧ entry.2.Encodable) (entries schema docs) := by
  induction docs with
  | nil => exact (Guards.ok []).congr ⟨fun _ => nofun, fun _ => trivial⟩
  | cons first rest ih =>
      have chained : Guards _ (entries schema (first :: rest)) :=
        (guards_entry schema first.1 first.2).bind fun written => ih.map (written :: ·)
      refine chained.congr ?_
      rw [List.forall_mem_cons]

theorem guards_preparePut (location : Location) (doc : Document) (ttl : Option Duration) :
    Guards (ValidName schema ∧ doc.Encodable ∧ ∀ d ∈ ttl, d.isZero = false)
      (preparePut schema location doc ttl) := by
  have chained := (guards_checkTtl ttl).bind fun _ => guards_entry schema location doc
  exact chained.congr (and_comm.trans and_assoc)

theorem guards_preparePutMany (docs : List (Location × Document)) :
    Guards (ValidName schema ∧ ∀ entry ∈ docs, entry.2.Encodable) (preparePutMany schema docs) := by
  have chained := (guards_checkSchema schema).bind fun _ => guards_entries schema docs
  refine chained.congr (and_congr_right fun valid => ?_)
  simp only [valid, true_and]

end Whole

theorem ByField.guards_preparePut (schema : String) (location : Location) (doc : Document)
    (ttl : Option Duration) :
    Guards (ValidName schema ∧ doc.Encodable ∧ ∀ d ∈ ttl, d.isZero = false)
      (preparePut schema location doc ttl) := by
  have table : Guards doc.Encodable (doc.toFieldTable.mapError Failure.unencodable) :=
    .mapError (Document.exists_toFieldTable_iff doc) fun _ => trivial
  have keyed := (guards_documentKey schema location).bind fun key => table.map (key, ·)
  have chained := (guards_checkTtl ttl).bind fun _ => keyed
  exact chained.congr (and_comm.trans and_assoc)

/-- The pattern of a search is never refused. -/
theorem Find.guards_prepare (schema : String) (pattern : Location) :
    Guards (ValidName schema) (prepare schema pattern) := by
  rw [prepare, compile_location]
  exact (guards_checkSchema schema).map fun found => (found, _)

end Folio
