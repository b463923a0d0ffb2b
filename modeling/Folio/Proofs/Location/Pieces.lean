import Folio.Proofs.Location.Pattern

/-!
# Segments cut into pieces

A segment matches a pattern's segment if it can be cut into pieces, one for each
character of the pattern, so that every character but a star stands over itself.  So a
location matches a pattern of its depth place by place, whatever characters they hold.
-/

namespace Folio

/-- Whether a character of a pattern takes a piece: a star takes any, another one only itself. -/
def Takes (c : Char) (piece : List Char) : Prop := c = '*' ∨ piece = [c]

/-- Whether characters can be cut into pieces that the characters of a pattern take, one by one. -/
def CutsInto (pattern chars : List Char) : Prop :=
  ∃ pieces : List (List Char), List.Forall₂ Takes pattern pieces ∧ pieces.flatten = chars

namespace CutsInto

variable {chars : List Char}

theorem nil_iff : CutsInto [] chars ↔ chars = [] := by
  constructor
  · rintro ⟨pieces, takes, rfl⟩
    cases takes
    rfl
  · rintro rfl
    exact ⟨[], .nil, rfl⟩

/-- The first character of a pattern takes the first piece. -/
theorem cons_iff {c : Char} {pattern : List Char} :
    CutsInto (c :: pattern) chars ↔
      ∃ piece rest, chars = piece ++ rest ∧ Takes c piece ∧ CutsInto pattern rest := by
  constructor
  · rintro ⟨pieces, takes, rfl⟩
    cases takes with
    | cons first behind => exact ⟨_, _, rfl, first, _, behind, rfl⟩
  · rintro ⟨piece, rest, rfl, first, pieces, behind, rfl⟩
    exact ⟨piece :: pieces, .cons first behind, rfl⟩

end CutsInto

/-- Matching with stars is cutting into pieces. -/
theorem starMatch_starTokens_iff (pattern chars : List Char) :
    StarMatch (starTokens pattern) chars ↔ CutsInto pattern chars := by
  induction pattern generalizing chars with
  | nil => exact StarMatch.nil_iff.trans CutsInto.nil_iff.symm
  | cons c pattern ih =>
      rw [CutsInto.cons_iff]
      by_cases star : c = '*'
      · have tokens : starTokens (c :: pattern) = none :: starTokens pattern :=
          congrArg (· :: starTokens pattern) (if_pos star)
        rw [tokens, StarMatch.star_iff]
        apply exists_congr
        intro run
        apply exists_congr
        intro rest
        rw [ih rest]
        exact and_congr_right fun _ => (and_iff_right (Or.inl star)).symm
      · have tokens : starTokens (c :: pattern) = some c :: starTokens pattern :=
          congrArg (· :: starTokens pattern) (if_neg star)
        rw [tokens, StarMatch.item_iff]
        constructor
        · rintro ⟨rest, rfl, behind⟩
          exact ⟨[c], rest, rfl, Or.inr rfl, (ih rest).1 behind⟩
        · rintro ⟨piece, rest, rfl, takes, behind⟩
          rcases takes with same | rfl
          · exact absurd same star
          · exact ⟨rest, rfl, (ih rest).2 behind⟩

theorem Location.matches_iff_places (pattern location : Location) :
    pattern.Matches location ↔ location.depth = pattern.depth ∧
      ∀ (place : Nat) (inPattern : place < pattern.segments.length)
        (inLocation : place < location.segments.length),
        CutsInto pattern.segments[place].toList location.segments[place].toList := by
  rw [Matches, List.forall₂_iff_get, eq_comm]
  refine and_congr_right fun _ => ?_
  simp only [SegmentMatches, starMatch_starTokens_iff, List.get_eq_getElem]

/--
A pattern compiles, whatever characters it holds, and a location matches it if and only if it has the
pattern's depth and each of its segments can be cut into pieces that the characters of the pattern's
segment at the same place take.
-/
theorem Location.matchesPattern_iff_cutsInto (location pattern : Location) :
    (∃ compiled, LocationPattern.compile pattern = .ok compiled ∧
      location.matchesPattern pattern = compiled.isMatch location) ∧
    (location.matchesPattern pattern = true ↔ location.depth = pattern.depth ∧
      ∀ (place : Nat) (inPattern : place < pattern.segments.length)
        (inLocation : place < location.segments.length),
        CutsInto pattern.segments[place].toList location.segments[place].toList) := by
  have matched : location.matchesPattern pattern =
      LocationPattern.isMatch ⟨pattern.segments.map compiledSegment⟩ location := by
    rw [matchesPattern, compile_location]
  refine ⟨⟨_, compile_location pattern, matched⟩, ?_⟩
  rw [matched, isMatch_location, matches_iff_places]

end Folio
