import Folio.Proofs.Access.Find

/-!
# Keys tell documents apart

The key of a document begins with the name of its schema and the first colon ends that
name, so no key begins like the keys of two schemas.  What follows is the rendered form
of the location, which tells its segments, empty ones included.
-/

namespace Folio

namespace Location

/-- Locations with the same rendered form have the same segments. -/
theorem segments_eq_of_render_eq {location place : Location}
    (same : location.render = place.render) : location.segments = place.segments := by
  have parts := Text.split_join location.nonempty location.no_delimiter
  have others := Text.split_join place.nonempty place.no_delimiter
  change Text.split delimiter location.render = location.segments at parts
  change Text.split delimiter place.render = place.segments at others
  exact parts.symm.trans ((congrArg (Text.split delimiter) same).trans others)

theorem segments_eq_iff_render_eq (location place : Location) :
    location.segments = place.segments ↔ location.render = place.render := by
  constructor
  · intro same
    exact congrArg (Text.join delimiter) same
  · exact segments_eq_of_render_eq

end Location

namespace Schema

/-- A text that begins like the keys of a schema has the name in front of its first colon. -/
theorem head?_splitChars_of_keyStart {schema : Schema} {text : List Char}
    (begins : schema.keyStart.toList <+: text) :
    (Text.splitChars delimiter text).head? = some schema.name.toList := by
  obtain ⟨rest, rfl⟩ := begins
  have start : schema.keyStart.toList ++ rest = schema.name.toList ++ delimiter :: rest := by
    simp only [keyStart, String.toList_append, List.append_assoc]
    rfl
  simp only [start, Text.splitChars_append schema.no_delimiter, List.head?_cons]

/-- No text begins like the keys of two schemas. -/
theorem eq_of_keyStart {schema other : Schema} {text : List Char}
    (begins : schema.keyStart.toList <+: text) (beginsToo : other.keyStart.toList <+: text) :
    schema = other := by
  have names := (head?_splitChars_of_keyStart begins).symm.trans
    (head?_splitChars_of_keyStart beginsToo)
  exact Schema.ext (String.toList_inj.1 (Option.some.inj names))

end Schema

/-- A key is listed as one location of one schema. -/
theorem Find.eq_of_locationOf? {schema other : Schema} {key : String} {location place : Location}
    (listed : locationOf? schema key = some location)
    (listedToo : locationOf? other key = some place) : schema = other ∧ location = place := by
  obtain ⟨-, made⟩ := locationOf?_eq_some_iff.1 listed
  obtain ⟨-, madeToo⟩ := locationOf?_eq_some_iff.1 listedToo
  exact Schema.key_inj (made.symm.trans madeToo)

/--
Under the names that schemas can have every location has a key, and two of them have the same key
only if the names and the segments are the same.  Locations are told apart by their rendered forms
too.  No key begins like the keys of two schemas, so a search lists it under one schema at most, and
as one location.
-/
theorem keys_tell_documents_apart {first second : String} {schema other : Schema}
    (accepted : checkSchema first = .ok schema) (acceptedToo : checkSchema second = .ok other)
    (location place : Location) :
    (∃ key, documentKey first location = .ok key) ∧
    (documentKey first location = documentKey second place ↔
      first = second ∧ location.segments = place.segments) ∧
    (location.segments = place.segments ↔ location.render = place.render) ∧
    ∀ key : String,
      (schema.keyStart.toList <+: key.toList → other.keyStart.toList <+: key.toList →
        first = second) ∧
      ∀ found ∈ Find.locationOf? schema key, ∀ foundToo ∈ Find.locationOf? other key,
        first = second ∧ found = foundToo := by
  obtain rfl := checkSchema_eq_ok_iff.1 accepted
  obtain rfl := checkSchema_eq_ok_iff.1 acceptedToo
  refine ⟨⟨_, documentKey_name schema location⟩, ?_, location.segments_eq_iff_render_eq place,
    fun key => ⟨?_, ?_⟩⟩
  · rw [documentKey_name, documentKey_name, Except.ok.injEq]
    constructor
    · intro same
      obtain ⟨sameSchema, samePlace⟩ := Schema.key_inj same
      exact ⟨congrArg Schema.name sameSchema, congrArg Location.segments samePlace⟩
    · rintro ⟨sameName, sameSegments⟩
      rw [Schema.ext sameName, Location.ext sameSegments]
  · intro begins beginsToo
    exact congrArg Schema.name (Schema.eq_of_keyStart begins beginsToo)
  · intro found listed foundToo listedToo
    obtain ⟨sameSchema, samePlace⟩ := Find.eq_of_locationOf? listed listedToo
    exact ⟨congrArg Schema.name sameSchema, samePlace⟩

/-- The name of one schema begins the name of the other, and the segments are empty. -/
theorem keys_tell_documents_apart_example :
    let schema : Schema := ⟨"s", by decide, by decide⟩
    let other : Schema := ⟨"s1", by decide, by decide⟩
    let location : Location := ⟨["", ""], by decide, by decide⟩
    let place : Location := ⟨[""], by decide, by decide⟩
    checkSchema "s" = .ok schema ∧ checkSchema "s1" = .ok other ∧
      documentKey "s" location = .ok "s::" ∧ documentKey "s1" place = .ok "s1:" ∧
      (∃ key, documentKey "s" location = .ok key) ∧
      (documentKey "s" location = documentKey "s1" place ↔
        "s" = "s1" ∧ location.segments = place.segments) ∧
      (location.segments = place.segments ↔ location.render = place.render) ∧
      ∀ key : String,
        (schema.keyStart.toList <+: key.toList → other.keyStart.toList <+: key.toList →
          "s" = "s1") ∧
        ∀ found ∈ Find.locationOf? schema key, ∀ foundToo ∈ Find.locationOf? other key,
          "s" = "s1" ∧ found = foundToo := by
  intro schema other location place
  have accepted : checkSchema "s" = .ok schema := rfl
  have acceptedToo : checkSchema "s1" = .ok other := rfl
  exact ⟨accepted, acceptedToo, by decide +kernel, by decide +kernel,
    keys_tell_documents_apart accepted acceptedToo location place⟩

end Folio
