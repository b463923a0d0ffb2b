import Folio.Location.Pattern
import Folio.Proofs.Glob.Characters
import Folio.Proofs.Glob.Match
import Folio.Proofs.Glob.Reading

/-!
# Key patterns item by item

A key pattern has a normal form item by item and compiles to the pieces of its items,
with one run for the stars between two of them.  In a pattern in which only stars have
a meaning, because everything else that has one is escaped, the items are characters;
it matches the keys that its characters match with stars.
-/

namespace Folio

open Text

/-! ## The normal form -/

section Items

variable {τ : Type} {text normal : τ → List Char}

/-- Whether an item that is written as `text` stands in the normal form as `normal`. -/
def HasNormal (text normal : List Char) : Prop :=
  ∀ (afterStar : Bool) (rest : List Char),
    normalChars (.outside afterStar) (text ++ rest) = normal ++ normalChars (.outside false) rest

/-- An escaped character stays escaped. -/
theorem hasNormal_escaped (c : Char) : HasNormal ['\\', c] ['\\', c] := fun _ _ => rfl

/-- Of the characters without a meaning in a pattern, the braces are escaped. -/
theorem hasNormal_literal {c : Char} (noBackslash : c ≠ '\\') (noStar : c ≠ '*')
    (noOpen : c ≠ '[') :
    HasNormal [c] (if c = '\x7b' ∨ c = '\x7d' then ['\\', c] else [c]) := by
  intro afterStar rest
  rw [List.singleton_append, normalChars, normalStep, if_neg noBackslash, if_neg noStar,
    if_neg noOpen]
  split <;> rfl

/-- The normal form has one star for several. -/
theorem normalChars_starText (afterStar : Bool) (pattern : List (Option τ))
    (normals : ∀ t, some t ∈ pattern → HasNormal (text t) (normal t)) :
    normalChars (.outside afterStar) (pattern.flatMap (starText text)) =
      (collapse afterStar pattern).flatMap (starText normal) := by
  induction pattern generalizing afterStar with
  | nil => rfl
  | cons token rest ih =>
      have normalsRest : ∀ t, some t ∈ rest → HasNormal (text t) (normal t) := fun t mem =>
        normals t (List.mem_cons_of_mem token mem)
      rw [List.flatMap_cons]
      cases token with
      | none =>
          have star : normalChars (.outside afterStar) (['*'] ++ rest.flatMap (starText text)) =
              (if afterStar then [] else ['*']) ++
                normalChars (.outside true) (rest.flatMap (starText text)) := rfl
          rw [starText, star, ih true normalsRest, collapse]
          cases afterStar <;> rfl
      | some t =>
          rw [starText, normals t List.mem_cons_self, ih false normalsRest, collapse, List.flatMap_cons,
            starText]

/-- A pattern compiles to the pieces of the items that its normal form has, if they do not nest. -/
theorem KeyPattern.compile_of_normal {pieces : τ → List Glob.Piece} {pattern : String}
    {items : List (Option τ)}
    (isNormal : normalChars (.outside false) pattern.toList =
      (collapse false items).flatMap (starText normal))
    (reads : ∀ t, some t ∈ items → Glob.ReadsAs (normal t) (pieces t))
    (shallow : Glob.depth ((collapse false items).flatMap (Glob.starPieces pieces)) ≤
      Glob.maxDepth) :
    compile pattern = .ok ⟨(collapse false items).flatMap (Glob.starPieces pieces)⟩ := by
  unfold compile
  rw [isNormal]
  dsimp only
  rw [Glob.compile_collapse items reads]
  exact if_pos shallow

/-- A pattern compiles to the pieces of its items, with one run for several stars. -/
theorem KeyPattern.compile_starText {pieces : τ → List Glob.Piece} (pattern : List (Option τ))
    (normals : ∀ t, some t ∈ pattern → HasNormal (text t) (normal t))
    (reads : ∀ t, some t ∈ pattern → Glob.ReadsAs (normal t) (pieces t))
    (shallow : Glob.depth ((collapse false pattern).flatMap (Glob.starPieces pieces)) ≤
      Glob.maxDepth) :
    compile (String.ofList (pattern.flatMap (starText text))) =
      .ok ⟨(collapse false pattern).flatMap (Glob.starPieces pieces)⟩ := by
  refine compile_of_normal ?_ reads shallow
  rw [String.toList_ofList]
  exact normalChars_starText false pattern normals

end Items

/-- What has a meaning neither in a pattern nor in its normal form is read as its bytes. -/
theorem Glob.readsAs_unescaped {c : Char} (noBackslash : c ≠ '\\') (noStar : c ≠ '*')
    (noMark : c ≠ '?') (noOpen : c ≠ '[') :
    ReadsAs (if c = '\x7b' ∨ c = '\x7d' then ['\\', c] else [c])
      ((String.utf8EncodeChar c).map .literal) := by
  split
  · exact readsAs_escaped c
  · rename_i noBrace
    refine readsAs_literal ?_
    by_cases close : c = ']'
    · exact Or.inr close
    · simp only [IsGlobSpecial, noBackslash, noStar, noMark, noOpen, close, noBrace, or_self,
        not_false_eq_true, true_or]

/-- Items that stand for rows of single bytes have a row of pieces each. -/
theorem Glob.flatMap_starPieces_map {τ υ : Type} (items : τ → List υ) (piece : υ → Piece)
    (pattern : List (Option τ)) :
    pattern.flatMap (starPieces fun t => (items t).map piece) =
      (pattern.flatMap (expand items)).map (itemPiece piece) := by
  have each : starPieces (fun t => (items t).map piece) =
      fun token => (expand items token).map (itemPiece piece) := by
    funext token
    cases token with
    | none => rfl
    | some t =>
        rw [expand, List.map_map]
        rfl
  rw [each, List.map_flatMap]

/-! ## Escaped text -/

def keyText : Option Char → List Char
  | none => ['*']
  | some c => escapeLiteralChar c

def globText : Option Char → List Char
  | none => ['*']
  | some c => if IsGlobSpecial c then ['\\', c] else [c]

theorem escapeLiteralChar_eq (c : Char) :
    escapeLiteralChar c =
      if c = '*' ∨ c = '?' ∨ c = '[' ∨ c = ']' ∨ c = '\\' then ['\\', c] else [c] := by
  by_cases star : c = '*'
  · rw [escapeLiteralChar, if_pos star, if_pos (Or.inl star)]
  · rw [escapeLiteralChar, if_neg star, escapePatternChar]
    simp only [star, false_or]

/-- A literal character is escaped in the normal form iff it is special there. -/
theorem hasNormal_escapeLiteralChar (c : Char) :
    HasNormal (escapeLiteralChar c) (globText (some c)) := by
  rw [escapeLiteralChar_eq, globText]
  split
  · rename_i escaped
    have special : IsGlobSpecial c := by
      rcases escaped with rfl | rfl | rfl | rfl | rfl <;> decide
    rw [if_pos special]
    exact hasNormal_escaped c
  · rename_i plain
    simp only [not_or] at plain
    obtain ⟨noStar, noMark, noOpen, noClose, noBackslash⟩ := plain
    have special : IsGlobSpecial c ↔ c = '\x7b' ∨ c = '\x7d' := by
      simp only [IsGlobSpecial, noMark, noOpen, noClose, noBackslash, noStar, false_or]
    simp only [special]
    exact hasNormal_literal noBackslash noStar noOpen

/-- A character is read as its bytes. -/
theorem Glob.readsAs_globText (c : Char) :
    ReadsAs (globText (some c)) ((String.utf8EncodeChar c).map .literal) := by
  rw [globText]
  split
  · exact readsAs_escaped c
  · rename_i plain
    exact readsAs_literal (Or.inl plain)

namespace KeyPattern

theorem keyText_eq : keyText = starText escapeLiteralChar := by
  funext token
  cases token <;> rfl

/-- The pieces of characters are those of their bytes. -/
theorem flatMap_starPieces (pattern : List (Option Char)) :
    pattern.flatMap (Glob.starPieces fun c => (String.utf8EncodeChar c).map .literal) =
      (pattern.flatMap byteTokens).map Glob.tokenPiece := by
  rw [Glob.map_tokenPiece, byteTokens_eq]
  exact Glob.flatMap_starPieces_map String.utf8EncodeChar .literal pattern

/-- Escaped text compiles, whatever it is. -/
theorem compile_keyText (pattern : List (Option Char)) :
    compile (String.ofList (pattern.flatMap keyText)) =
      .ok ⟨((collapse false pattern).flatMap byteTokens).map Glob.tokenPiece⟩ := by
  have shallow := Glob.depth_le ((collapse false pattern).flatMap byteTokens)
  rw [← flatMap_starPieces] at shallow ⊢
  rw [keyText_eq]
  exact compile_starText pattern (fun c _ => hasNormal_escapeLiteralChar c)
    (fun c _ => Glob.readsAs_globText c) shallow

/-- The pattern of escaped text matches the keys that its characters match with stars. -/
theorem isMatch_keyText (pattern : List (Option Char)) (key : String) :
    isMatch ⟨((collapse false pattern).flatMap byteTokens).map Glob.tokenPiece⟩ key = true ↔
      StarMatch pattern key.toList := by
  rw [isMatch, Glob.matchBytes_iff, ← encode_toList, starMatch_encode_iff]

end KeyPattern

end Folio
