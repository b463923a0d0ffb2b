import Folio.Proofs.KeyPattern
import Folio.Proofs.Location
import Mathlib.Data.List.Forall2

/-!
# Locations matched by patterns

A location matches a pattern of its depth if each segment matches the pattern's
segment, read with stars.  Compiling a pattern never fails, and the key pattern of
a scan matches at least the keys of all the locations that the pattern matches.
-/

namespace Folio

open Text

/-- Characters as a pattern in which only `*` has a meaning. -/
def starTokens (chars : List Char) : List (Option Char) :=
  chars.map fun c => if c = '*' then none else some c

def SegmentMatches (pattern segment : String) : Prop :=
  StarMatch (starTokens pattern.toList) segment.toList

/-- Whether a location has the depth of a pattern and matches it segment by segment. -/
def Location.Matches (pattern location : Location) : Prop :=
  List.Forall₂ SegmentMatches pattern.segments location.segments

theorem keyText_token (c : Char) :
    keyText (if c = '*' then none else some c) = escapePatternChar c := by
  by_cases star : c = '*'
  · subst star
    rfl
  · rw [if_neg star, keyText, escapeLiteralChar, if_neg star]

theorem flatMap_keyText_starTokens (chars : List Char) :
    (starTokens chars).flatMap keyText = chars.flatMap escapePatternChar := by
  rw [starTokens, List.flatMap_map]
  exact congrArg (List.flatMap · chars) (funext keyText_token)

/-! ## Segment by segment -/

def compiledSegment (segment : String) : KeyPattern :=
  ⟨((collapse false (starTokens segment.toList)).flatMap byteTokens).map Glob.tokenPiece⟩

theorem compile_segmentPattern (segment : String) :
    KeyPattern.compile (segmentPattern segment) = .ok (compiledSegment segment) := by
  rw [segmentPattern, ← flatMap_keyText_starTokens]
  exact KeyPattern.compile_keyText (starTokens segment.toList)

theorem isMatch_compiledSegment (pattern segment : String) :
    (compiledSegment pattern).isMatch segment = true ↔ SegmentMatches pattern segment :=
  KeyPattern.isMatch_keyText (starTokens pattern.toList) segment

theorem compileSegments_ok (segments : List String) :
    LocationPattern.compileSegments segments = .ok (segments.map compiledSegment) := by
  induction segments with
  | nil => rfl
  | cons segment rest ih =>
      rw [LocationPattern.compileSegments, compile_segmentPattern, ih]
      rfl

/-- Compiling a pattern never fails. -/
theorem compile_location (pattern : Location) :
    LocationPattern.compile pattern = .ok ⟨pattern.segments.map compiledSegment⟩ := by
  rw [LocationPattern.compile, compileSegments_ok]
  rfl

theorem matchSegments_iff (patterns segments : List String) :
    LocationPattern.matchSegments (patterns.map compiledSegment) segments = true ↔
      List.Forall₂ SegmentMatches patterns segments := by
  induction patterns generalizing segments with
  | nil =>
      cases segments with
      | nil => simp [LocationPattern.matchSegments]
      | cons segment rest => simp [LocationPattern.matchSegments]
  | cons pattern more ih =>
      cases segments with
      | nil => simp [LocationPattern.matchSegments]
      | cons segment rest =>
          rw [List.map_cons, LocationPattern.matchSegments, Bool.and_eq_true, ih rest,
            isMatch_compiledSegment, List.forall₂_cons]

/-- A compiled pattern matches the locations that match it segment by segment. -/
theorem isMatch_location (pattern location : Location) :
    LocationPattern.isMatch ⟨pattern.segments.map compiledSegment⟩ location = true ↔
      pattern.Matches location :=
  matchSegments_iff pattern.segments location.segments

/-! ## Keys as a whole -/

def scanTokens (schema : Schema) (pattern : Location) : List (Option Char) :=
  schema.name.toList.map some ++ some ':' :: starTokens pattern.render.toList

theorem flatMap_joinChars {f : Char → List Char} {delimiter : Char} (kept : f delimiter = [delimiter])
    (parts : List (List Char)) :
    (joinChars delimiter parts).flatMap f = joinChars delimiter (parts.map (List.flatMap f)) := by
  induction parts with
  | nil => rfl
  | cons part rest ih =>
      cases rest with
      | nil => rfl
      | cons next more =>
          rw [joinChars, List.flatMap_append, List.flatMap_cons, kept, ih]
          rfl

theorem toList_patternText (pattern : Location) :
    pattern.patternText.toList = (starTokens pattern.render.toList).flatMap keyText := by
  rw [flatMap_keyText_starTokens, Location.patternText, Location.render, join, join,
    String.toList_ofList, String.toList_ofList, flatMap_joinChars rfl, List.map_map, List.map_map]
  congr 1
  refine List.map_congr_left fun segment _ => ?_
  exact String.toList_ofList

/-- What a scan asks for is a pattern in which only stars have a meaning. -/
theorem scanText_eq (schema : Schema) (pattern : Location) :
    schema.scanText pattern = String.ofList ((scanTokens schema pattern).flatMap keyText) := by
  have name : (schema.name.toList.map some).flatMap keyText =
      schema.name.toList.flatMap escapeLiteralChar := by
    rw [List.flatMap_map]
    rfl
  rw [← String.toList_inj, Schema.scanText, scanTokens, String.toList_append, String.toList_append,
    String.toList_ofList, toList_patternText, List.flatMap_append, name, List.flatMap_cons,
    List.append_assoc, String.toList_ofList, String.toList_ofList]
  rfl

/-- Segments that match one by one also match with colons between them. -/
theorem starMatch_join {patterns segments : List String}
    (matched : List.Forall₂ SegmentMatches patterns segments) :
    StarMatch (starTokens (joinChars delimiter (patterns.map String.toList)))
      (joinChars delimiter (segments.map String.toList)) := by
  have colon : ∀ chars, starTokens (delimiter :: chars) = some delimiter :: starTokens chars :=
    fun chars => rfl
  induction matched with
  | nil => exact .nil
  | cons first rest ih =>
      cases rest with
      | nil => exact first
      | cons second more =>
          simp only [List.map_cons, joinChars] at ih ⊢
          rw [starTokens, List.map_append]
          exact first.append (.item delimiter ih)

/-- A scan selects the keys of all locations that match the pattern. -/
theorem starMatch_key (schema : Schema) {pattern location : Location}
    (matched : pattern.Matches location) :
    StarMatch (scanTokens schema pattern) (schema.key location).toList := by
  rw [Schema.toList_key, scanTokens]
  refine (StarMatch.items schema.name.toList).append (.item ':' ?_)
  rw [Location.render, Location.render, join, join, String.toList_ofList, String.toList_ofList]
  exact starMatch_join matched

end Folio
