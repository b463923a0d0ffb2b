import Folio.Proofs.Location.Pattern
import Folio.Proofs.Redis.Glob

/-!
# What a server selects for a scan

In the glob of a scan everything that has a meaning is escaped but the stars of the
pattern, so a server reads the bytes of the other characters from it, and so does a
key pattern.  What the server selects is the keys of the schema, and among them those
of all locations that match.
-/

namespace Folio

open Text

/-! ## Reading escaped text -/

namespace Redis

open Glob (ByteItem)

/-- A literal character is read as its bytes, whether it is escaped or not. -/
theorem readGlob_escapeLiteralChar (c : Char) (rest : Bytes) :
    readGlob (encode (escapeLiteralChar c) ++ rest) = charItems c ++ readGlob rest := by
  rw [escapeLiteralChar_eq]
  split
  · rw [encode_cons_of_ascii (by decide), encode_cons, encode_nil, List.append_nil,
      List.cons_append]
    exact readGlob_escapedChar c rest
  · rename_i plain
    simp only [not_or] at plain
    obtain ⟨noStar, noMark, noOpen, -, noBackslash⟩ := plain
    rw [encode_cons, encode_nil, List.append_nil]
    exact readGlob_char (not_mem_ruleChars_iff.2 ⟨noStar, noMark, noOpen, noBackslash⟩) rest

/-- Escaped text is read as the bytes of its characters, with a star for each of its stars. -/
theorem readGlob_keyText (pattern : List (Option Char)) :
    readGlob (encode (pattern.flatMap keyText)) =
      (pattern.flatMap byteTokens).map (Option.map ByteItem.byte) := by
  induction pattern with
  | nil => exact readGlob_nil
  | cons token rest ih =>
      rw [List.flatMap_cons, List.flatMap_cons, encode_append, List.map_append, ← ih]
      cases token with
      | none => exact readGlob_star _
      | some c =>
          have bytes : (byteTokens (some c)).map (Option.map ByteItem.byte) = charItems c := by
            rw [byteTokens, charItems, List.map_map, List.map_map]
            rfl
          rw [keyText, readGlob_escapeLiteralChar, bytes]

/-- A server selects by escaped text what the bytes of its characters match with stars. -/
theorem selects_keyText_iff (pattern : List (Option Char)) (key : Bytes) :
    Selects (encode (pattern.flatMap keyText)) key ↔ StarMatch (pattern.flatMap byteTokens) key := by
  rw [Selects, readGlob_keyText, ItemMatch.map_pattern_iff, StarMatch.iff_itemMatch]
  exact ItemMatch.congr fun _ _ => eq_comm

end Redis

/-! ## Scans -/

/-- A server selects the keys that match the pattern of the scan, character by character. -/
theorem Schema.selects_iff_starMatch (schema : Schema) (pattern : Location) (key : String) :
    Redis.Selects (utf8 (schema.scanText pattern)) (utf8 key) ↔
      StarMatch (scanTokens schema pattern) key.toList := by
  rw [scanText_eq, utf8_ofList, Redis.selects_keyText_iff, ← encode_toList,
    starMatch_byteTokens_iff]

/-- Whatever a server selects begins with the name of the schema and a colon. -/
theorem Schema.keyStart_prefix_of_selects {schema : Schema} {pattern : Location} {key : Bytes}
    (selected : Redis.Selects (utf8 (schema.scanText pattern)) key) :
    utf8 schema.keyStart <+: key := by
  have tokens : scanTokens schema pattern =
      schema.keyStart.toList.map some ++ starTokens pattern.render.toList := by
    rw [scanTokens, keyStart, String.toList_append, List.map_append, List.append_assoc]
    rfl
  rw [scanText_eq, utf8_ofList, Redis.selects_keyText_iff, tokens, List.flatMap_append,
    byteTokens_map_some] at selected
  obtain ⟨rest, rfl, -⟩ := StarMatch.items_append_iff.1 selected
  exact List.prefix_append _ rest

/--
A server that is asked for a scan selects the keys of all locations that match the pattern, and what
it selects begins with the name of the schema and a colon, whatever characters the name holds.  The
text that it is asked with also is a key pattern, which matches the same keys.
-/
theorem Schema.scan_selects (schema : Schema) (pattern : Location) :
    (∀ location : Location, location.matchesPattern pattern = true →
      Redis.Selects (utf8 (schema.scanText pattern)) (utf8 (schema.key location))) ∧
    (∀ key : Bytes, Redis.Selects (utf8 (schema.scanText pattern)) key →
      utf8 schema.keyStart <+: key) ∧
    ∃ compiled, KeyPattern.compile (schema.scanText pattern) = .ok compiled ∧
      ∀ key : String, compiled.isMatch key = true ↔
        Redis.Selects (utf8 (schema.scanText pattern)) (utf8 key) := by
  refine ⟨?_, fun key => keyStart_prefix_of_selects, ?_⟩
  · intro location matched
    rw [Location.matchesPattern, compile_location] at matched
    rw [selects_iff_starMatch]
    exact starMatch_key schema ((isMatch_location pattern location).1 matched)
  · refine ⟨_, (congrArg KeyPattern.compile (scanText_eq schema pattern)).trans
      (KeyPattern.compile_keyText _), ?_⟩
    intro key
    rw [selects_iff_starMatch]
    exact KeyPattern.isMatch_keyText _ key

end Folio
