import Folio.Access.Basic
import Folio.Proofs.Except

/-!
# Rendered forms and keys

A location is its segments with colons between them, and reading that text gives
the location back, unless the text is empty.  The key of a document is the name of
its schema and the rendered form of its location, so the key tells both.
-/

namespace Folio

/-- A text that is not empty is read as the location with this rendered form. -/
theorem Location.ofText_eq_ok_iff {text : String} {location : Location} :
    ofText text = .ok location ↔ text ≠ "" ∧ location.render = text := by
  unfold ofText
  by_cases empty : text = ""
  · subst empty
    constructor
    · rintro ⟨⟩
    · rintro ⟨nonempty, -⟩
      exact absurd rfl nonempty
  · rw [if_neg (mt String.isEmpty_iff.1 empty)]
    constructor
    · rintro ⟨⟩
      exact ⟨empty, Text.join_split delimiter text⟩
    · rintro ⟨-, rfl⟩
      exact congrArg Except.ok (Location.ext (Text.split_join location.nonempty location.no_delimiter))

namespace Location

/-! ## Rendered forms -/

/-- Only a location whose one segment is empty has an empty rendered form. -/
theorem render_eq_empty_iff (location : Location) :
    location.render = "" ↔ location.segments = [""] := by
  constructor
  · intro empty
    have parts := Text.split_join location.nonempty location.no_delimiter
    change Text.split delimiter location.render = location.segments at parts
    rw [empty] at parts
    exact parts.symm
  · intro alone
    rw [render, alone]
    rfl

def reread (location : Location) : Except Misuse Location := ofText location.render

theorem reread_eq (location : Location) :
    location.reread = if location.segments = [""] then .error .emptyLocation else .ok location := by
  split
  · rename_i alone
    rw [reread, (render_eq_empty_iff location).2 alone]
    rfl
  · rename_i others
    exact ofText_eq_ok_iff.2 ⟨mt (render_eq_empty_iff location).1 others, rfl⟩

/-- What a constructor accepts is read back, unless it is the one location that is not. -/
theorem bind_reread {made : Except Misuse Location}
    (others : ∀ location, made = .ok location → location.segments ≠ [""]) :
    made >>= reread = made := by
  cases made with
  | error misuse => rfl
  | ok location => exact (reread_eq location).trans (if_neg (others location rfl))

theorem segments_of_ofSegments {segments : List String} {location : Location}
    (made : ofSegments segments = .ok location) : location.segments = segments := by
  unfold ofSegments at made
  split at made
  · cases made
  · split at made
    · cases made
    · cases made
      rfl

def blank : Location := ⟨[""], List.cons_ne_nil _ _, by simp⟩

theorem ofSegments_blank : ofSegments [""] = .ok blank := rfl

theorem reread_blank : blank.reread = .error .emptyLocation := (reread_eq blank).trans (if_pos rfl)

theorem integer_ne_empty (n : Int) : Text.integer n ≠ "" := by
  have digits : Text.integerChars n ≠ [] := by
    unfold Text.integerChars
    split
    · exact List.cons_ne_nil _ _
    · exact Nat.toDigits_ne_nil
  rw [Text.integer, ne_eq, String.ofList_eq_empty_iff]
  exact digits

/-- No location of whole numbers has an empty segment. -/
theorem segments_of_ofIndices {indices : List Int64} {location : Location}
    (made : ofIndices indices = .ok location) : location.segments ≠ [""] := by
  rw [segments_of_ofSegments made]
  intro alone
  obtain ⟨index, _, -, written, -⟩ := List.map_eq_cons_iff.1 alone
  exact integer_ne_empty _ written

/-- No location that is read from a text consists of one empty segment. -/
theorem segments_of_ofText {text : String} {location : Location}
    (made : ofText text = .ok location) : location.segments ≠ [""] := by
  obtain ⟨nonempty, rendered⟩ := ofText_eq_ok_iff.1 made
  rw [← rendered] at nonempty
  exact mt (render_eq_empty_iff location).2 nonempty

theorem render_ofText (text : String) :
    render <$> ofText text = if text = "" then .error .emptyLocation else .ok text := by
  split
  · rename_i empty
    rw [empty]
    rfl
  · rename_i nonempty
    cases made : ofText text with
    | error misuse =>
        unfold ofText at made
        rw [if_neg (mt String.isEmpty_iff.1 nonempty)] at made
        cases made
    | ok location => exact congrArg Except.ok (ofText_eq_ok_iff.1 made).2

/--
Every location that is made of whole numbers or read from a text is read back from its rendered
form, and every text that is read is the rendered form of what was read.  Of the locations that are
made of segments, exactly the one whose only segment is empty is not read back.
-/
theorem rendered_forms_read_back (segments : List String) (indices : List Int64) (text : String) :
    (ofSegments segments >>= reread =
      if segments = [""] then .error .emptyLocation else ofSegments segments) ∧
    ofIndices indices >>= reread = ofIndices indices ∧
    ofText text >>= reread = ofText text ∧
    render <$> ofText text = if text = "" then .error .emptyLocation else .ok text := by
  refine ⟨?_, bind_reread fun _ made => segments_of_ofIndices made,
    bind_reread fun _ made => segments_of_ofText made, render_ofText text⟩
  split
  · rename_i alone
    rw [alone, ofSegments_blank]
    exact reread_blank
  · rename_i others
    refine bind_reread fun location made => ?_
    rw [segments_of_ofSegments made]
    exact others

/-- A location of one empty segment can be made, but not read back. -/
theorem lone_empty_segment_not_read_back :
    ∃ location, ofSegments [""] = .ok location ∧ location.reread = .error .emptyLocation :=
  ⟨blank, ofSegments_blank, reread_blank⟩

end Location

namespace Schema

theorem toList_key (schema : Schema) (location : Location) :
    (schema.key location).toList = schema.name.toList ++ ':' :: location.render.toList := by
  rw [key, keyStart, String.toList_append, String.toList_append, List.append_assoc]
  rfl

/-- A key is cut into the name of the schema and the segments of the location. -/
theorem split_key (schema : Schema) (location : Location) :
    Text.split delimiter (schema.key location) = schema.name :: location.segments := by
  have rest := Text.split_join location.nonempty location.no_delimiter
  have whole := Text.splitChars_append schema.no_delimiter location.render.toList
  rw [Text.split] at rest ⊢
  rw [toList_key]
  change (Text.splitChars delimiter (schema.name.toList ++ delimiter :: _)).map String.ofList = _
  rw [whole, List.map_cons, String.ofList_toList]
  exact congrArg (schema.name :: ·) rest

/-- Different schemas or locations have different keys. -/
theorem key_inj {schema other : Schema} {location place : Location}
    (same : schema.key location = other.key place) : schema = other ∧ location = place := by
  have parts := split_key schema location
  rw [same, split_key, List.cons.injEq] at parts
  exact ⟨Schema.ext parts.1.symm, Location.ext parts.2.symm⟩

theorem delimiter_mem_key (schema : Schema) (location : Location) :
    ':' ∈ (schema.key location).toList := by
  rw [toList_key]
  exact List.mem_append_right _ List.mem_cons_self

end Schema

theorem checkSchema_eq_ok_iff {name : String} {schema : Schema} :
    checkSchema name = .ok schema ↔ schema.name = name := by
  unfold checkSchema Schema.ofText
  obtain ⟨other, nonempty, noColon⟩ := schema
  constructor
  · intro ok
    split at ok
    · cases ok
    · split at ok
      · cases ok
      · cases ok
        rfl
  · rintro rfl
    dsimp only
    rw [dif_neg nonempty, dif_neg noColon]
    rfl

/-- The key of a document, given a name that a schema can have. -/
theorem documentKey_eq_ok_iff {name : String} {location : Location} {key : String} :
    documentKey name location = .ok key ↔
      ∃ schema : Schema, schema.name = name ∧ key = schema.key location := by
  unfold documentKey
  rw [bind_eq_ok_iff]
  constructor
  · rintro ⟨schema, named, ⟨⟩⟩
    exact ⟨schema, checkSchema_eq_ok_iff.1 named, rfl⟩
  · rintro ⟨schema, named, rfl⟩
    exact ⟨schema, checkSchema_eq_ok_iff.2 named, rfl⟩

theorem documentKey_name (schema : Schema) (location : Location) :
    documentKey schema.name location = .ok (schema.key location) :=
  documentKey_eq_ok_iff.2 ⟨schema, rfl, rfl⟩

end Folio
