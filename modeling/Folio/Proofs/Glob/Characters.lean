import Folio.Proofs.Glob.Star

/-!
# Matching characters by their bytes

Patterns of characters may be matched byte by byte: the bytes of a character that
follows a star are found at a place where a character begins, since only the first
byte of a character looks like one.  A star may end inside a character only if
another star follows, so patterns are taken with one star for several.
-/

namespace Folio

open Text

/-! ## Where characters begin -/

/-- Only the first byte of a character looks like one. -/
theorem isFirstByte_iff {c : Char} {front back : Bytes} {b : UInt8}
    (bytes : String.utf8EncodeChar c = front ++ b :: back) : b.IsUTF8FirstByte ↔ front = [] := by
  have inside : front.length < (String.utf8EncodeChar c).length := by
    rw [bytes, List.length_append, List.length_cons]
    omega
  have here : (String.utf8EncodeChar c)[front.length] = b := by simp [bytes]
  rw [← here, UInt8.isUTF8FirstByte_getElem_utf8EncodeChar, List.length_eq_zero_iff]

theorem exists_cons_utf8EncodeChar (c : Char) :
    ∃ b more, String.utf8EncodeChar c = b :: more ∧ b.IsUTF8FirstByte := by
  cases bytes : String.utf8EncodeChar c with
  | nil => exact absurd bytes String.utf8EncodeChar_ne_nil
  | cons b more =>
      have noFront : String.utf8EncodeChar c = [] ++ b :: more := bytes
      exact ⟨b, more, rfl, (isFirstByte_iff noFront).2 rfl⟩

/-- Bytes that begin like a character are those of characters as a whole. -/
theorem exists_chars_of_encode_eq {chars : List Char} {run rest : Bytes} {b : UInt8}
    (bytes : encode chars = run ++ b :: rest) (first : b.IsUTF8FirstByte) :
    ∃ front back, chars = front ++ back ∧ b :: rest = encode back := by
  induction chars generalizing run with
  | nil => exact absurd bytes.symm (by simp)
  | cons c more ih =>
      rw [encode_cons, List.append_eq_append_iff] at bytes
      rcases bytes with ⟨between, rfl, behind⟩ | ⟨last, char, behind⟩
      · obtain ⟨front, back, rfl, found⟩ := ih behind
        exact ⟨c :: front, back, rfl, found⟩
      · cases last with
        | nil => exact ⟨[c], more, rfl, by simpa using behind⟩
        | cons d last =>
            obtain ⟨rfl, rest⟩ := List.cons.inj behind
            obtain rfl := (isFirstByte_iff char).1 first
            refine ⟨[], c :: more, rfl, ?_⟩
            rw [encode_cons, char, rest]
            rfl

/-! ## Matching -/

/-- The pattern of the bytes of one item of a pattern of characters. -/
def byteTokens : Option Char → List (Option UInt8)
  | none => [none]
  | some c => (String.utf8EncodeChar c).map some

theorem byteTokens_eq : byteTokens = expand String.utf8EncodeChar := by
  funext token
  cases token <;> rfl

theorem byteTokens_map_some (chars : List Char) :
    (chars.map some).flatMap byteTokens = (encode chars).map some := by
  rw [List.flatMap_map, encode, List.map_flatMap]
  rfl

/-- What a pattern of characters matches, the pattern of their bytes matches. -/
theorem StarMatch.encode {pattern : List (Option Char)} {chars : List Char}
    (found : StarMatch pattern chars) :
    StarMatch (pattern.flatMap byteTokens) (encode chars) := by
  induction found with
  | nil => exact nil
  | item c _ ih =>
      rw [List.flatMap_cons, encode_cons]
      exact (items (String.utf8EncodeChar c)).append ih
  | star run _ ih =>
      rw [List.flatMap_cons, encode_append]
      exact star (Text.encode run) ih

/-- A pattern of bytes that does not begin with a star matches where characters begin only. -/
theorem first_of_starMatch {pattern : List (Option Char)} (noStar : pattern.head? ≠ some none)
    {bytes : Bytes} (found : StarMatch (pattern.flatMap byteTokens) bytes) :
    bytes = [] ∨ ∃ b rest, bytes = b :: rest ∧ b.IsUTF8FirstByte := by
  cases pattern with
  | nil => exact Or.inl (StarMatch.nil_iff.1 found)
  | cons token more =>
      cases token with
      | none => exact absurd rfl noStar
      | some c =>
          rw [List.flatMap_cons] at found
          obtain ⟨rest, rfl, -⟩ := StarMatch.items_append_iff.1 found
          obtain ⟨b, tail, bytes, first⟩ := exists_cons_utf8EncodeChar c
          exact Or.inr ⟨b, tail ++ rest, by rw [bytes]; rfl, first⟩

/-- What the pattern of bytes matches, the pattern of characters does, with one star for several. -/
theorem starMatch_of_encode (afterStar : Bool) (pattern : List (Option Char)) {chars : List Char}
    (found : StarMatch ((collapse afterStar pattern).flatMap byteTokens) (encode chars)) :
    StarMatch (collapse afterStar pattern) chars := by
  induction pattern generalizing afterStar chars with
  | nil =>
      have empty := StarMatch.nil_iff.1 found
      rw [← encode_nil] at empty
      rw [encode_injective empty]
      exact .nil
  | cons token rest ih =>
      cases token with
      | some c =>
          rw [collapse] at found ⊢
          rw [List.flatMap_cons] at found
          obtain ⟨behind, bytes, found⟩ := StarMatch.items_append_iff.1 found
          cases chars with
          | nil =>
              have none := (List.append_eq_nil_iff.1 bytes.symm).1
              exact absurd none String.utf8EncodeChar_ne_nil
          | cons d more =>
              rw [encode_cons] at bytes
              obtain ⟨rfl, rfl⟩ := utf8EncodeChar_append_inj bytes
              exact .item d (ih false found)
      | none =>
          cases afterStar with
          | true => exact ih true found
          | false =>
              rw [collapse, if_neg Bool.false_ne_true] at found ⊢
              rw [List.flatMap_cons] at found
              obtain ⟨run, behind, bytes, matched⟩ := StarMatch.star_iff.1 found
              rcases first_of_starMatch (head?_collapse_true rest) matched with
                rfl | ⟨b, more, rfl, first⟩
              · rw [← encode_nil] at matched
                have last := StarMatch.star chars (ih true matched)
                rwa [List.append_nil] at last
              · obtain ⟨front, back, rfl, same⟩ := exists_chars_of_encode_eq bytes first
                rw [same] at matched
                exact .star front (ih true matched)

/-- Matching by bytes is matching by characters. -/
theorem starMatch_encode_iff (pattern : List (Option Char)) (chars : List Char) :
    StarMatch ((collapse false pattern).flatMap byteTokens) (encode chars) ↔
      StarMatch pattern chars := by
  rw [← starMatch_collapse pattern chars]
  exact ⟨starMatch_of_encode false pattern, StarMatch.encode⟩

theorem starMatch_byteTokens_iff (pattern : List (Option Char)) (chars : List Char) :
    StarMatch (pattern.flatMap byteTokens) (encode chars) ↔ StarMatch pattern chars := by
  have single := starMatch_encode_iff pattern chars
  rw [byteTokens_eq, ← collapse_flatMap_expand fun c => String.utf8EncodeChar_ne_nil,
    starMatch_collapse] at single
  rw [byteTokens_eq]
  exact single

end Folio
