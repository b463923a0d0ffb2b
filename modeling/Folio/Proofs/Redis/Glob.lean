import Folio.Proofs.Glob.Characters
import Folio.Proofs.Glob.Match

/-!
# Globs as a server reads them

A server reads the bytes of a glob from left to right: `*` is any run of bytes, `?` any
one byte, `[...]` one byte of a class, and a backslash makes the next byte literal.  It
has no other rules, and it knows no characters but their bytes.
-/

namespace Folio

open Text

namespace Glob

inductive ByteItem where
  | byte (b : UInt8)
  | any
  | one (set : ByteSet)

namespace ByteItem

def Accepts : ByteItem → UInt8 → Prop
  | byte b, d => d = b
  | any, _ => True
  | one set, d => set.contains d = true

def set : ByteItem → ByteSet
  | byte b => .singleton b
  | any => .all
  | one set => set

def piece : ByteItem → Piece
  | byte b => .literal b
  | any => .any
  | one set => .one set

theorem set?_piece (item : ByteItem) : item.piece.set? = some item.set := by
  cases item <;> rfl

theorem contains_set (item : ByteItem) (d : UInt8) :
    item.set.contains d = true ↔ item.Accepts d := by
  cases item with
  | byte b => exact contains_singleton d b
  | any => exact ⟨fun _ => trivial, fun _ => rfl⟩
  | one set => exact Iff.rfl

end ByteItem

end Glob

namespace Redis

open Glob (ByteItem ByteSet)

/-! ## The rules -/

/--
Read the members of a class up to the bracket (0x5d) that ends it, or up to the end of the glob.  A
backslash (0x5c) makes the next byte a member, and a dash (0x2d) between two bytes makes a range.
-/
def readMembers : Bytes → List (UInt8 × UInt8) × Bytes
  | [] => ([], [])
  | 0x5c :: b :: rest => ((b, b) :: (readMembers rest).1, (readMembers rest).2)
  | 0x5d :: rest => ([], rest)
  | first :: 0x2d :: last :: rest =>
      ((min first last, max first last) :: (readMembers rest).1, (readMembers rest).2)
  | b :: rest => ((b, b) :: (readMembers rest).1, (readMembers rest).2)

/-- Read a class, which a caret (0x5e) in front negates. -/
def readClass : Bytes → ByteSet × Bytes
  | 0x5e :: rest => (⟨true, (readMembers rest).1⟩, (readMembers rest).2)
  | rest => (⟨false, (readMembers rest).1⟩, (readMembers rest).2)

theorem length_readMembers_le (bytes : Bytes) : (readMembers bytes).2.length ≤ bytes.length := by
  fun_induction readMembers bytes with
  | case1 => exact Nat.le_refl 0
  | case3 rest => exact Nat.le_succ _
  | case2 b rest ih | case4 first last rest _ _ ih | case5 b rest _ _ _ ih =>
      simp only [List.length_cons]
      omega

theorem length_readClass_le (bytes : Bytes) : (readClass bytes).2.length ≤ bytes.length := by
  unfold readClass
  split
  · exact Nat.le_succ_of_le (length_readMembers_le _)
  · exact length_readMembers_le _

/-- Read a glob; `none` is a star.  A backslash at the end has nothing to escape but itself. -/
def readGlob : Bytes → List (Option ByteItem)
  | [] => []
  | b :: rest =>
      if b = '*'.toUInt8 then none :: readGlob rest
      else if b = '?'.toUInt8 then some .any :: readGlob rest
      else if b = '['.toUInt8 then some (.one (readClass rest).1) :: readGlob (readClass rest).2
      else if b = '\\'.toUInt8 then some (.byte (rest.headD b)) :: readGlob rest.tail
      else some (.byte b) :: readGlob rest
termination_by glob => glob.length
decreasing_by
  all_goals simp only [List.length_cons, List.length_tail]
  all_goals have := length_readClass_le rest
  all_goals omega

/-- Whether a server selects a key by a glob. -/
def Selects (glob key : Bytes) : Prop := ItemMatch ByteItem.Accepts (readGlob glob) key

/-! ## Reading characters -/

def ruleChars : List Char := ['*', '?', '[', '\\']

def charItems (c : Char) : List (Option ByteItem) :=
  ((String.utf8EncodeChar c).map .byte).map some

theorem mem_ruleChars_iff {c : Char} :
    c ∈ ruleChars ↔ c = '*' ∨ c = '?' ∨ c = '[' ∨ c = '\\' := by
  simp only [ruleChars, List.mem_cons, List.not_mem_nil, or_false]

theorem not_mem_ruleChars_iff {c : Char} :
    c ∉ ruleChars ↔ c ≠ '*' ∧ c ≠ '?' ∧ c ≠ '[' ∧ c ≠ '\\' := by
  simp only [mem_ruleChars_iff, not_or, ne_eq]

theorem ascii_of_mem_ruleChars {c : Char} (rule : c ∈ ruleChars) : c.toNat < 0x80 := by
  rcases mem_ruleChars_iff.1 rule with rfl | rfl | rfl | rfl <;> decide

theorem readGlob_nil : readGlob [] = [] := by
  rw [readGlob]

theorem readGlob_star (rest : Bytes) :
    readGlob ('*'.toUInt8 :: rest) = none :: readGlob rest := by
  rw [readGlob, if_pos rfl]

theorem readGlob_any (rest : Bytes) :
    readGlob ('?'.toUInt8 :: rest) = some .any :: readGlob rest := by
  rw [readGlob, if_neg (by decide), if_pos rfl]

theorem readGlob_escape (b : UInt8) (rest : Bytes) :
    readGlob ('\\'.toUInt8 :: b :: rest) = some (.byte b) :: readGlob rest := by
  rw [readGlob, if_neg (by decide), if_neg (by decide), if_neg (by decide), if_pos rfl]
  rfl

theorem readGlob_backslash :
    readGlob ['\\'.toUInt8] = [some (.byte '\\'.toUInt8)] := by
  rw [readGlob, if_neg (by decide), if_neg (by decide), if_neg (by decide), if_pos rfl,
    List.tail_nil, readGlob_nil]
  rfl

/-- Bytes without a meaning stand for themselves. -/
theorem readGlob_bytes {bytes : Bytes} (plain : ∀ b ∈ bytes, b ∉ ruleChars.map Char.toUInt8)
    (rest : Bytes) :
    readGlob (bytes ++ rest) = (bytes.map .byte).map some ++ readGlob rest := by
  induction bytes with
  | nil => rfl
  | cons b more ih =>
      have here := plain b List.mem_cons_self
      have behind := ih fun d mem => plain d (List.mem_cons_of_mem b mem)
      simp only [ruleChars, List.map_cons, List.map_nil, List.mem_cons, List.not_mem_nil, or_false,
        not_or] at here
      obtain ⟨noStar, noMark, noBracket, noBackslash⟩ := here
      rw [List.cons_append, readGlob, if_neg noStar, if_neg noMark, if_neg noBracket,
        if_neg noBackslash, behind]
      rfl

/-- No byte of a character has a meaning that the character has not. -/
theorem not_mem_ruleChars {c : Char} (plain : c ∉ ruleChars) {b : UInt8}
    (mem : b ∈ String.utf8EncodeChar c) : b ∉ ruleChars.map Char.toUInt8 := by
  intro rule
  obtain ⟨d, isRule, same⟩ := List.mem_map.1 rule
  have ascii := ascii_of_mem_ruleChars isRule
  by_cases small : c.toNat < 0x80
  · rw [utf8EncodeChar_of_ascii small, List.mem_singleton] at mem
    have equal : d = c := (toUInt8_inj ascii small).1 (same.trans mem)
    exact plain (equal ▸ isRule)
  · have large := UInt8.le_iff_toNat_le.1 (le_of_mem_utf8EncodeChar (Nat.le_of_not_lt small) mem)
    rw [← same, toNat_toUInt8 (Nat.lt_trans ascii (by decide))] at large
    exact absurd ascii (Nat.not_lt.2 large)

/-- A character without a meaning stands for its bytes. -/
theorem readGlob_char {c : Char} (plain : c ∉ ruleChars) (rest : Bytes) :
    readGlob (String.utf8EncodeChar c ++ rest) = charItems c ++ readGlob rest :=
  readGlob_bytes (fun _ mem => not_mem_ruleChars plain mem) rest

/-- An escaped character stands for its bytes, though only the first of them is escaped. -/
theorem readGlob_escapedChar (c : Char) (rest : Bytes) :
    readGlob ('\\'.toUInt8 :: (String.utf8EncodeChar c ++ rest)) = charItems c ++ readGlob rest := by
  by_cases ascii : c.toNat < 0x80
  · rw [charItems, utf8EncodeChar_of_ascii ascii]
    exact readGlob_escape _ rest
  · have plain : c ∉ ruleChars := mt ascii_of_mem_ruleChars ascii
    obtain ⟨b, more, bytes, -⟩ := exists_cons_utf8EncodeChar c
    have behind : ∀ d ∈ more, d ∉ ruleChars.map Char.toUInt8 := fun d mem =>
      not_mem_ruleChars plain (bytes ▸ List.mem_cons_of_mem b mem)
    rw [charItems, bytes, List.cons_append, readGlob_escape, readGlob_bytes behind]
    rfl

end Redis

end Folio
