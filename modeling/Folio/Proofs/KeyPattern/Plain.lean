import Folio.Proofs.KeyPattern
import Folio.Proofs.Redis.Glob

/-!
# Key patterns without classes

A key pattern in which no opening bracket is unescaped is a row of stars and items, each
of which stands for the bytes of a character or for any byte.  Such a pattern always
compiles, to runs and single bytes, and a server reads the same items from it, so the
pattern matches the keys that a server selects by it.
-/

namespace Folio

open Text

/-- The characters of a pattern that are not escaped; a backslash stays only at the end. -/
def unescaped : List Char → List Char
  | '\\' :: _ :: rest => unescaped rest
  | c :: rest => c :: unescaped rest
  | [] => []

theorem unescaped_cons {c : Char} (noBackslash : c ≠ '\\') (rest : List Char) :
    unescaped (c :: rest) = c :: unescaped rest := by
  rw [unescaped]
  exact fun _ _ same => absurd same noBackslash

theorem unescaped_stars (count : Nat) (rest : List Char) :
    unescaped (List.replicate count '*' ++ rest) = List.replicate count '*' ++ unescaped rest := by
  induction count with
  | zero => rfl
  | succ count ih =>
      rw [List.replicate_succ, List.cons_append, unescaped_cons (by decide), ih]
      rfl

/-- What follows is read alone, unless the front ends with a lone backslash. -/
theorem unescaped_append {front : List Char} (settled : '\\' ∉ unescaped front) (back : List Char) :
    unescaped (front ++ back) = unescaped front ++ unescaped back := by
  fun_induction unescaped front with
  | case1 c rest ih => exact ih settled
  | case2 c rest noEscape ih =>
      have noBackslash : c ≠ '\\' := (List.ne_of_not_mem_cons settled).symm
      rw [List.cons_append, unescaped_cons noBackslash, ih (List.not_mem_of_not_mem_cons settled)]
      rfl
  | case3 => rfl

inductive PlainItem where
  | literal (c : Char)
  | escaped (c : Char)
  | any

namespace PlainItem

def normal : PlainItem → List Char
  | literal c => if c = '\x7b' ∨ c = '\x7d' then ['\\', c] else [c]
  | escaped c => ['\\', c]
  | any => ['?']

def bytes : PlainItem → List Glob.ByteItem
  | literal c | escaped c => (String.utf8EncodeChar c).map .byte
  | any => [.any]

theorem bytes_ne_nil (item : PlainItem) : item.bytes ≠ [] := by
  cases item with
  | literal c | escaped c => exact mt List.map_eq_nil_iff.1 String.utf8EncodeChar_ne_nil
  | any => exact List.cons_ne_nil _ _

theorem mem_bytes (item : PlainItem) {byteItem : Glob.ByteItem} (mem : byteItem ∈ item.bytes) :
    byteItem = .any ∨ ∃ b, byteItem = .byte b := by
  cases item with
  | literal c | escaped c =>
      obtain ⟨b, -, rfl⟩ := List.mem_map.1 mem
      exact Or.inr ⟨b, rfl⟩
  | any => exact Or.inl (List.mem_singleton.1 mem)

/-! ## How items are spelled -/

/-- Whether some items are written as some characters; a backslash at the end is an escaped one. -/
inductive Spells : List (Option PlainItem) → List Char → Prop
  | nil : Spells [] []
  | backslash : Spells [some (.escaped '\\')] ['\\']
  | escaped {items : List (Option PlainItem)} {chars : List Char} (c : Char)
      (rest : Spells items chars) : Spells (some (.escaped c) :: items) ('\\' :: c :: chars)
  | star {items : List (Option PlainItem)} {chars : List Char} (rest : Spells items chars) :
      Spells (none :: items) ('*' :: chars)
  | any {items : List (Option PlainItem)} {chars : List Char} (rest : Spells items chars) :
      Spells (some .any :: items) ('?' :: chars)
  | literal {items : List (Option PlainItem)} {chars : List Char} {c : Char}
      (plain : c ∉ Redis.ruleChars) (rest : Spells items chars) :
      Spells (some (.literal c) :: items) (c :: chars)

/-- Whatever has no unescaped opening bracket is a row of items. -/
theorem exists_spells {chars : List Char} (noClass : '[' ∉ unescaped chars) :
    ∃ items, Spells items chars := by
  fun_induction unescaped chars with
  | case1 c rest ih =>
      obtain ⟨items, spells⟩ := ih noClass
      exact ⟨_, spells.escaped c⟩
  | case2 c rest noEscape ih =>
      have noBracket := List.ne_of_not_mem_cons noClass
      obtain ⟨items, spells⟩ := ih (List.not_mem_of_not_mem_cons noClass)
      by_cases rule : c ∈ Redis.ruleChars
      · rcases Redis.mem_ruleChars_iff.1 rule with rfl | rfl | rfl | rfl
        · exact ⟨_, spells.star⟩
        · exact ⟨_, spells.any⟩
        · exact absurd rfl noBracket
        -- A backslash with a character behind it is the escape of the case before.
        · cases rest with
          | nil => exact ⟨_, .backslash⟩
          | cons d rest => exact absurd rfl (noEscape d rest rfl)
      · exact ⟨_, spells.literal rule⟩
  | case3 => exact ⟨_, .nil⟩

namespace Spells

variable {items behind : List (Option PlainItem)} {chars rest : List Char}

/-- Rows of items follow one another, unless the first one ends with a lone backslash. -/
theorem append (spells : Spells items chars) (settled : '\\' ∉ unescaped chars)
    (more : Spells behind rest) : Spells (items ++ behind) (chars ++ rest) := by
  induction spells with
  | nil => exact more
  | backslash => exact absurd List.mem_cons_self settled
  | escaped c _ ih => exact (ih settled).escaped c
  | star _ ih => exact (ih (List.not_mem_of_not_mem_cons settled)).star
  | any _ ih => exact (ih (List.not_mem_of_not_mem_cons settled)).any
  | literal plain _ ih =>
      obtain ⟨-, -, -, noBackslash⟩ := Redis.not_mem_ruleChars_iff.1 plain
      rw [unescaped_cons noBackslash] at settled
      exact (ih (List.not_mem_of_not_mem_cons settled)).literal plain

theorem stars (count : Nat) (spells : Spells items chars) :
    Spells (List.replicate count none ++ items) (List.replicate count '*' ++ chars) := by
  induction count with
  | zero => exact spells
  | succ count ih => exact ih.star

/-- Items stand in the normal form item by item, with one star for several. -/
theorem normalChars_eq (spells : Spells items chars) (afterStar : Bool) :
    normalChars (.outside afterStar) chars =
      (collapse afterStar items).flatMap (starText PlainItem.normal) := by
  induction spells generalizing afterStar with
  | nil | backslash => rfl
  | escaped c _ ih => exact congrArg (['\\', c] ++ ·) (ih false)
  | star _ ih =>
      cases afterStar with
      | true => exact ih true
      | false => exact congrArg ('*' :: ·) (ih true)
  | any _ ih => exact congrArg ('?' :: ·) (ih false)
  | @literal items chars c plain _ ih =>
      obtain ⟨noStar, -, noOpen, noBackslash⟩ := Redis.not_mem_ruleChars_iff.1 plain
      have kept := hasNormal_literal noBackslash noStar noOpen afterStar chars
      rw [List.singleton_append, ih false] at kept
      exact kept

/-- A server reads the items for the bytes that the items stand for. -/
theorem readGlob_eq (spells : Spells items chars) :
    Redis.readGlob (encode chars) = items.flatMap (expand PlainItem.bytes) := by
  induction spells with
  | nil => exact Redis.readGlob_nil
  | backslash => exact Redis.readGlob_backslash
  | escaped c _ ih =>
      rw [encode_cons_of_ascii (by decide), encode_cons, Redis.readGlob_escapedChar, ih]
      rfl
  | star _ ih =>
      rw [encode_cons_of_ascii (by decide), Redis.readGlob_star, ih]
      rfl
  | any _ ih =>
      rw [encode_cons_of_ascii (by decide), Redis.readGlob_any, ih]
      rfl
  | @literal items chars c plain _ ih =>
      rw [encode_cons, Redis.readGlob_char plain, ih]
      rfl

theorem not_mem_ruleChars {c : Char} (spells : Spells items chars)
    (mem : some (PlainItem.literal c) ∈ items) : c ∉ Redis.ruleChars := by
  induction spells with
  | nil => cases mem
  | backslash => simp at mem
  | escaped _ _ ih | star _ ih | any _ ih =>
      apply ih
      simpa using mem
  | literal plain _ ih =>
      rcases List.mem_cons.1 mem with same | mem
      · cases same
        exact plain
      · exact ih mem

/-- Items are read as the pieces for the bytes that they stand for. -/
theorem readsAs {item : PlainItem} (spells : Spells items chars) (mem : some item ∈ items) :
    Glob.ReadsAs item.normal (item.bytes.map Glob.ByteItem.piece) := by
  have bytes : ∀ c, ((String.utf8EncodeChar c).map Glob.ByteItem.byte).map Glob.ByteItem.piece =
      (String.utf8EncodeChar c).map Glob.Piece.literal := fun c => List.map_map
  cases item with
  | literal c =>
      obtain ⟨noStar, noMark, noOpen, noBackslash⟩ :=
        Redis.not_mem_ruleChars_iff.1 (spells.not_mem_ruleChars mem)
      rw [PlainItem.bytes, bytes]
      exact Glob.readsAs_unescaped noBackslash noStar noMark noOpen
  | escaped c =>
      rw [PlainItem.bytes, bytes]
      exact Glob.readsAs_escaped c
  | any => exact Glob.readsAs_any

end Spells

end PlainItem

/-! ## Compiled items -/

namespace KeyPattern

open PlainItem (Spells)

variable {items : List (Option PlainItem)} {pattern : String}

def ofItems (items : List (Option PlainItem)) : KeyPattern :=
  ⟨((collapse false items).flatMap (expand PlainItem.bytes)).map
    (Glob.itemPiece Glob.ByteItem.piece)⟩

theorem compile_of_spells (spells : Spells items pattern.toList) :
    compile pattern = .ok (ofItems items) := by
  have shallow := Glob.depth_itemPiece_le Glob.ByteItem.set?_piece
    ((collapse false items).flatMap (expand PlainItem.bytes))
  rw [ofItems]
  rw [← Glob.flatMap_starPieces_map] at shallow ⊢
  exact compile_of_normal (spells.normalChars_eq false) (fun _ mem => spells.readsAs mem) shallow

/-- The compiled form of items matches the keys that a server selects by their text. -/
theorem isMatch_ofItems (spells : Spells items pattern.toList) (key : String) :
    (ofItems items).isMatch key = true ↔ Redis.Selects (utf8 pattern) (utf8 key) := by
  rw [isMatch, ofItems, Glob.matchBytes_itemPiece Glob.ByteItem.set?_piece,
    ← collapse_flatMap_expand PlainItem.bytes_ne_nil, itemMatch_collapse, Redis.Selects,
    ← encode_toList pattern, spells.readGlob_eq]
  exact ItemMatch.congr Glob.ByteItem.contains_set

/-- Compiled items are runs and single bytes. -/
theorem mem_pieces_ofItems {piece : Glob.Piece} (mem : piece ∈ (ofItems items).pieces) :
    piece = .run ∨ piece = .any ∨ ∃ b, piece = .literal b := by
  obtain ⟨token, made, rfl⟩ := List.mem_map.1 mem
  obtain ⟨item, -, written⟩ := List.mem_flatMap.1 made
  cases item with
  | none =>
      cases List.mem_singleton.1 written
      exact Or.inl rfl
  | some item =>
      obtain ⟨byteItem, inBytes, rfl⟩ := List.mem_map.1 written
      rcases item.mem_bytes inBytes with rfl | ⟨b, rfl⟩
      · exact Or.inr (Or.inl rfl)
      · exact Or.inr (Or.inr ⟨b, rfl⟩)

/-- Several stars in a row are one wherever the first of them is not escaped. -/
theorem compile_stars {front back : List Char} (stars : Nat) (settled : '\\' ∉ unescaped front)
    (noClass : '[' ∉ unescaped (front ++ (List.replicate (stars + 1) '*' ++ back))) :
    compile (String.ofList (front ++ (List.replicate (stars + 1) '*' ++ back))) =
      compile (String.ofList (front ++ '*' :: back)) := by
  rw [unescaped_append settled, unescaped_stars, List.mem_append, List.mem_append, not_or,
    not_or] at noClass
  obtain ⟨noClassFront, -, noClassBack⟩ := noClass
  obtain ⟨first, spelled⟩ := PlainItem.exists_spells noClassFront
  obtain ⟨behind, spelledBack⟩ := PlainItem.exists_spells noClassBack
  have several := spelled.append settled (spelledBack.stars (stars + 1))
  have single := spelled.append settled spelledBack.star
  rw [← String.toList_ofList (l := front ++ _)] at several single
  rw [compile_of_spells several, compile_of_spells single, ofItems, collapse_replicate]
  rfl

/--
A pattern without an unescaped opening bracket compiles.  It matches the keys that a server selects
by it, byte by byte.  Nothing in it becomes a recursive wildcard, since it compiles to runs and single
bytes, and several stars in a row are one wherever the first of them is not escaped.
-/
theorem isMatch_iff_selects (pattern : String) (noClass : '[' ∉ unescaped pattern.toList) :
    ∃ compiled, compile pattern = .ok compiled ∧
      (∀ key : String, compiled.isMatch key = true ↔ Redis.Selects (utf8 pattern) (utf8 key)) ∧
      (∀ piece ∈ compiled.pieces, piece = .run ∨ piece = .any ∨ ∃ b, piece = .literal b) ∧
      ∀ (front back : List Char) (stars : Nat), '\\' ∉ unescaped front →
        pattern.toList = front ++ (List.replicate (stars + 1) '*' ++ back) →
          compile (String.ofList (front ++ '*' :: back)) = .ok compiled := by
  obtain ⟨items, spells⟩ := PlainItem.exists_spells noClass
  refine ⟨_, compile_of_spells spells, isMatch_ofItems spells, fun _ => mem_pieces_ofItems, ?_⟩
  intro front back stars settled text
  -- The items above need not be cut where the stars are, so the texts are compared as compiled.
  have whole : pattern = String.ofList (front ++ (List.replicate (stars + 1) '*' ++ back)) := by
    rw [← text, String.ofList_toList]
  rw [text] at noClass
  rw [← compile_stars stars settled noClass, ← whole]
  exact compile_of_spells spells

theorem isMatch_iff_selects_example :
    '[' ∉ unescaped "a/**/\\[\\**?\x7b,]\\".toList ∧
      ∃ compiled, compile "a/**/\\[\\**?\x7b,]\\" = .ok compiled ∧
        (∀ key : String, compiled.isMatch key = true ↔
          Redis.Selects (utf8 "a/**/\\[\\**?\x7b,]\\") (utf8 key)) ∧
        compile "a/*/\\[\\**?\x7b,]\\" = .ok compiled := by
  have noClass : '[' ∉ unescaped "a/**/\\[\\**?\x7b,]\\".toList := by decide
  obtain ⟨compiled, compiles, selects, -, single⟩ := isMatch_iff_selects _ noClass
  refine ⟨noClass, compiled, compiles, selects, ?_⟩
  have text : String.ofList ("a/".toList ++ '*' :: "/\\[\\**?\x7b,]\\".toList) =
      "a/*/\\[\\**?\x7b,]\\" := by decide
  rw [← text]
  exact single "a/".toList "/\\[\\**?\x7b,]\\".toList 1 (by decide) (by decide)

end KeyPattern

end Folio
