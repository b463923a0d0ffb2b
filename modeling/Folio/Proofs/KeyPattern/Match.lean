import Folio.Proofs.KeyPattern.Class

/-!
# Key patterns match what they say

Each item of a key pattern of ASCII is one piece, which stands for the bytes of the
characters that the item stands for.  So a pattern whose escapes would have no meaning
in its classes without their backslashes matches the keys of ASCII that it says.
-/

namespace Folio

open Text

/-- A class contains the bytes of the characters that it stands for. -/
theorem CharClass.contains_byteSet (cls : CharClass) {c : Char} (ascii : c.toNat < 0x80) :
    cls.byteSet.contains c.toUInt8 = true ↔ cls.Accepts c := by
  have found : (cls.byteSet.ranges.any fun range =>
      range.1 ≤ c.toUInt8 && c.toUInt8 ≤ range.2) = true ↔ ∃ item ∈ cls.items, item.Has c := by
    rw [byteSet, List.any_map, List.any_eq_true]
    refine exists_congr fun item => and_congr_right fun mem => ?_
    obtain ⟨low, high, -⟩ := (cls.wellFormed item mem).bounds
    rw [Function.comp_apply, Bool.and_eq_true, decide_eq_true_eq, decide_eq_true_eq,
      toUInt8_le_iff low ascii, toUInt8_le_iff ascii high, item.has_iff]
  have marked : cls.byteSet.negated = cls.mark.isSome := rfl
  rw [Glob.ByteSet.contains, Accepts, marked]
  cases cls.mark.isSome with
  | true =>
      rw [Bool.true_bne, Bool.not_eq_true', if_pos rfl, ← Bool.not_eq_true, found, not_exists]
      exact forall_congr' fun item => not_and
  | false => rw [Bool.false_bne, found, if_neg Bool.false_ne_true]

namespace KeyItem

def normal : KeyItem → List Char
  | literal c => if c = '\x7b' ∨ c = '\x7d' then ['\\', c] else [c]
  | escaped c => ['\\', c]
  | any => ['?']
  | one cls => cls.normal

def piece : KeyItem → Glob.Piece
  | literal c | escaped c => .literal c.toUInt8
  | any => .any
  | one cls => .one cls.byteSet

def byteSet : KeyItem → Glob.ByteSet
  | literal c | escaped c => .singleton c.toUInt8
  | any => .all
  | one cls => cls.byteSet

theorem set?_piece (item : KeyItem) : item.piece.set? = some item.byteSet := by
  cases item <;> rfl

variable {item : KeyItem}

theorem hasNormal (wellFormed : item.WellFormed) : HasNormal item.text item.normal := by
  cases item with
  | literal c =>
      obtain ⟨-, noBackslash, noStar, -, noOpen⟩ := wellFormed
      exact hasNormal_literal noBackslash noStar noOpen
  | escaped c => exact hasNormal_escaped c
  | any => exact fun _ _ => rfl
  | one cls => exact cls.hasNormal

/-- An item in which no escape is missed is read as its piece. -/
theorem readsAs (wellFormed : item.WellFormed) (idle : item.EscapesIdle) :
    Glob.ReadsAs item.normal [item.piece] := by
  have bytes : ∀ {c : Char}, c.toNat < 0x80 →
      (String.utf8EncodeChar c).map Glob.Piece.literal = [.literal c.toUInt8] := by
    intro c ascii
    rw [utf8EncodeChar_of_ascii ascii, List.map_singleton]
  cases item with
  | literal c =>
      obtain ⟨ascii, noBackslash, noStar, noMark, noOpen⟩ := wellFormed
      rw [piece, ← bytes ascii]
      exact Glob.readsAs_unescaped noBackslash noStar noMark noOpen
  | escaped c =>
      rw [piece, ← bytes wellFormed]
      exact Glob.readsAs_escaped c
  | any => exact Glob.readsAs_any
  | one cls => exact Glob.readsAs_class cls idle

/-- The bytes of an item are those of the characters that it stands for. -/
theorem contains_byteSet (wellFormed : item.WellFormed) {c : Char} (ascii : c.toNat < 0x80) :
    item.byteSet.contains c.toUInt8 = true ↔ item.Accepts c := by
  cases item with
  | literal d => exact (Glob.contains_singleton _ _).trans (toUInt8_inj ascii wellFormed.1)
  | escaped d => exact (Glob.contains_singleton _ _).trans (toUInt8_inj ascii wellFormed)
  | any => exact ⟨fun _ => trivial, fun _ => rfl⟩
  | one cls => exact cls.contains_byteSet ascii

end KeyItem

namespace KeyPattern

/-- The pieces of items that have one piece each. -/
theorem flatMap_starPieces_singleton {τ : Type} (piece : τ → Glob.Piece)
    (pattern : List (Option τ)) :
    pattern.flatMap (Glob.starPieces fun t => [piece t]) =
      pattern.map (Glob.itemPiece piece) := by
  have single : expand (fun t : τ => [t]) = fun token => [token] := by
    funext token
    cases token <;> rfl
  have pieces := Glob.flatMap_starPieces_map (fun t => [t]) piece pattern
  rw [single, List.flatMap_singleton'] at pieces
  exact pieces

/--
A well-formed pattern in whose classes no escape would have a meaning without its backslash compiles,
and it matches the keys of ASCII that its items match with stars.
-/
theorem isMatch_iff_itemMatch (pattern : List (Option KeyItem))
    (wellFormed : ∀ item, some item ∈ pattern → item.WellFormed)
    (idle : ∀ item, some item ∈ pattern → item.EscapesIdle) :
    ∃ compiled, compile (itemsText pattern) = .ok compiled ∧
      ∀ key : String, (∀ c ∈ key.toList, c.toNat < 0x80) →
        (compiled.isMatch key = true ↔ ItemMatch KeyItem.Accepts pattern key.toList) := by
  have shallow := Glob.depth_itemPiece_le KeyItem.set?_piece (collapse false pattern)
  rw [← flatMap_starPieces_singleton] at shallow
  refine ⟨_, compile_starText pattern (fun item mem => KeyItem.hasNormal (wellFormed item mem))
    (fun item mem => KeyItem.readsAs (wellFormed item mem) (idle item mem)) shallow, ?_⟩
  intro key ascii
  rw [isMatch, flatMap_starPieces_singleton, Glob.matchBytes_itemPiece KeyItem.set?_piece,
    itemMatch_collapse, ← encode_toList, encode_of_ascii ascii]
  exact ItemMatch.map_iff Char.toUInt8 fun item mem c inKey =>
    KeyItem.contains_byteSet (wellFormed item mem) (ascii c inKey)

/-- A class of a bracket, some letters and a dash. -/
def bracketAndLetters : CharClass :=
  ⟨none, [.escaped ']', .range 'a' 'c', .escaped '-'], nofun, by decide, by decide, by decide⟩

theorem isMatch_iff_itemMatch_example :
    ∃ compiled, compile "u[\\]a-c\\-]*" = .ok compiled ∧
      ∀ key : String, (∀ c ∈ key.toList, c.toNat < 0x80) →
        (compiled.isMatch key = true ↔
          ItemMatch KeyItem.Accepts [some (.literal 'u'), some (.one bracketAndLetters), none]
            key.toList) := by
  let pattern : List (Option KeyItem) := [some (.literal 'u'), some (.one bracketAndLetters), none]
  have text : itemsText pattern = "u[\\]a-c\\-]*" := by decide +kernel
  have wellFormed : ∀ item, some item ∈ pattern → item.WellFormed := by
    simp [pattern, KeyItem.WellFormed]
  have escapes : bracketAndLetters.EscapesIdle := ⟨by decide, by decide, by decide⟩
  have idle : ∀ item, some item ∈ pattern → item.EscapesIdle := by
    simp [pattern, KeyItem.EscapesIdle, escapes]
  rw [← text]
  exact isMatch_iff_itemMatch pattern wellFormed idle

/-- A class of a bracket between two letters. -/
def bracketBehindLetter : CharClass :=
  ⟨none, [.plain 'a', .escaped ']', .plain 'b'], nofun, by decide, by decide, by decide⟩

/-- Behind a member an escaped bracket ends a class, so patterns do not always match what they say. -/
theorem escaped_bracket_ends_class :
    ¬∀ pattern : List (Option KeyItem), (∀ item, some item ∈ pattern → item.WellFormed) →
      ∃ compiled, compile (itemsText pattern) = .ok compiled ∧
        ∀ key : String, (∀ c ∈ key.toList, c.toNat < 0x80) →
          (compiled.isMatch key = true ↔ ItemMatch KeyItem.Accepts pattern key.toList) := by
  intro kept
  obtain ⟨compiled, compiles, matches_iff⟩ :=
    kept [some (.one bracketBehindLetter)] (by simp [KeyItem.WellFormed])
  have accepted : bracketBehindLetter.Accepts ']' := ⟨.escaped ']', by decide, rfl⟩
  have ascii : ∀ c ∈ "]".toList, c.toNat < 0x80 := by simp
  have matched := (matches_iff "]" ascii).2 (.item accepted .nil)
  have missed : (compile (itemsText [some (.one bracketBehindLetter)])).toOption.map
      (·.isMatch "]") = some false := by decide +kernel
  rw [compiles] at missed
  cases matched.symm.trans (Option.some.inj missed)

end KeyPattern

end Folio
