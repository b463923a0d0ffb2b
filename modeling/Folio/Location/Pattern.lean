import Folio.Location

/-!
# Locations as patterns

A location is also a pattern for locations of its depth: a `*` in a segment is
any run of characters within the segment, and every other character stands for
itself.  For a scan the pattern is written as one key pattern, which may select
too much, because its stars also cross colons; what it selects is then matched
segment by segment.
-/

namespace Folio

/-- A pattern character as key pattern text in which only `*` is special. -/
def escapePatternChar (c : Char) : List Char :=
  if c = '?' ∨ c = '[' ∨ c = ']' ∨ c = '\\' then ['\\', c] else [c]

def escapeLiteralChar (c : Char) : List Char :=
  if c = '*' then ['\\', c] else escapePatternChar c

def segmentPattern (segment : String) : String :=
  String.ofList (segment.toList.flatMap escapePatternChar)

namespace Location

def patternText (pattern : Location) : String :=
  Text.join delimiter (pattern.segments.map segmentPattern)

end Location

def Schema.scanText (schema : Schema) (pattern : Location) : String :=
  String.ofList (schema.name.toList.flatMap escapeLiteralChar) ++ ":" ++ pattern.patternText

/-- A compiled pattern, segment by segment. -/
structure LocationPattern where
  segments : List KeyPattern

namespace LocationPattern

def compileSegments : List String → Except PatternFault (List KeyPattern)
  | [] => .ok []
  | segment :: rest => do
      let pattern ← KeyPattern.compile (segmentPattern segment)
      .ok (pattern :: (← compileSegments rest))

def compile (pattern : Location) : Except PatternFault LocationPattern := do
  .ok ⟨← compileSegments pattern.segments⟩

def matchSegments : List KeyPattern → List String → Bool
  | [], [] => true
  | pattern :: patterns, segment :: segments =>
      pattern.isMatch segment && matchSegments patterns segments
  | _, _ => false

def isMatch (pattern : LocationPattern) (location : Location) : Bool :=
  matchSegments pattern.segments location.segments

end LocationPattern

/-- Whether a location matches another one read as a pattern. -/
def Location.matchesPattern (location pattern : Location) : Bool :=
  match LocationPattern.compile pattern with
  | .ok compiled => compiled.isMatch location
  | .error _ => false

end Folio
