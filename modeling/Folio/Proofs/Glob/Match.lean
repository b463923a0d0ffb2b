import Folio.Glob.Expression
import Folio.Proofs.Glob.Star

/-!
# Globs of single bytes and runs

Of a glob whose pieces are runs or stand for one byte each, the table of matches holds
for each suffix whether the rest of the glob matches it, so the glob matches what its
pieces match as items, with stars for its runs.
-/

namespace Folio.Glob

/-- The piece for an item of a pattern of bytes. -/
def tokenPiece : Option UInt8 → Piece
  | none => .run
  | some b => .literal b

/-- The pieces of a pattern whose items are pieces. -/
def itemPiece {τ : Type} (piece : τ → Piece) : Option τ → Piece
  | none => .run
  | some t => piece t

/-- The set of bytes of which a piece stands for one, if it is such a piece. -/
def Piece.set? : Piece → Option ByteSet
  | .literal byte => some (.singleton byte)
  | .any => some .all
  | .one set => some set
  | .run | .directories _ | .choice _ => none

theorem Piece.table_of_set? {piece : Piece} {set : ByteSet} (single : piece.set? = some set)
    (bytes : Bytes) (after : List Bool) : piece.table bytes after = oneTable set bytes after := by
  cases piece with
  | literal byte | any | one set =>
      cases single
      rw [Piece.table]
  | run | directories place | choice alternatives => cases single

theorem Piece.depth_of_set? {piece : Piece} {set : ByteSet} (single : piece.set? = some set) :
    piece.depth ≤ 2 := by
  cases piece with
  | literal byte | any =>
      rw [Piece.depth]
      exact Nat.zero_le 2
  | one set =>
      rw [Piece.depth, ByteSet.depth]
      split
      · exact Nat.le_succ 1
      · exact Nat.le_refl 2
  | run | directories place | choice alternatives => cases single

/-- Whether a table holds for each suffix of some bytes whether it has a property. -/
def Tabulates (holds : Bytes → Prop) : Bytes → List Bool → Prop
  | [], [here] => here = true ↔ holds []
  | b :: bytes, here :: after => (here = true ↔ holds (b :: bytes)) ∧ Tabulates holds bytes after
  | _, _ => False

variable {holds : Bytes → Prop}

theorem Tabulates.headD {bytes : Bytes} {table : List Bool} (tabulates : Tabulates holds bytes table) :
    table.headD false = true ↔ holds bytes := by
  cases bytes with
  | nil =>
      match table, tabulates with
      | [here], tabulates => exact tabulates
  | cons b bytes =>
      match table, tabulates with
      | here :: after, tabulates => exact tabulates.1

theorem tabulates_endTable (bytes : Bytes) : Tabulates (· = []) bytes (endTable bytes) := by
  induction bytes with
  | nil => exact ⟨fun _ => rfl, fun _ => rfl⟩
  | cons b bytes ih => exact ⟨⟨fun no => absurd no Bool.false_ne_true, fun no => nomatch no⟩, ih⟩

theorem contains_singleton (b byte : UInt8) : (ByteSet.singleton byte).contains b = true ↔ b = byte := by
  simp only [ByteSet.contains, ByteSet.singleton, List.any_cons, List.any_nil, Bool.or_false,
    Bool.false_bne, Bool.and_eq_true, decide_eq_true_eq]
  constructor
  · rintro ⟨low, high⟩
    exact UInt8.le_antisymm high low
  · rintro rfl
    exact ⟨UInt8.le_refl b, UInt8.le_refl b⟩

theorem Tabulates.oneTable {bytes : Bytes} {after : List Bool}
    (tabulates : Tabulates holds bytes after) (set : ByteSet) :
    Tabulates (fun suffix => ∃ b rest, suffix = b :: rest ∧ set.contains b = true ∧ holds rest) bytes
      (oneTable set bytes after) := by
  induction bytes generalizing after with
  | nil =>
      match after, tabulates with
      | [here], _ =>
          constructor
          · intro no
            exact absurd no Bool.false_ne_true
          · rintro ⟨b, rest, no, -⟩
            cases no
  | cons b bytes ih =>
      match after, tabulates with
      | here :: after, ⟨_, rest⟩ =>
          refine ⟨?_, ih rest⟩
          rw [Bool.and_eq_true, rest.headD]
          constructor
          · rintro ⟨contained, found⟩
            exact ⟨b, bytes, rfl, contained, found⟩
          · rintro ⟨_, rest, same, contained, found⟩
            cases same
            exact ⟨contained, found⟩

theorem Tabulates.runTable {bytes : Bytes} {after : List Bool}
    (tabulates : Tabulates holds bytes after) :
    Tabulates (fun suffix => ∃ run rest, suffix = run ++ rest ∧ holds rest) bytes
      (runTable after) := by
  induction bytes generalizing after with
  | nil =>
      match after, tabulates with
      | [here], tabulates =>
          have last : here = true ↔ holds [] := tabulates
          change ((here || false) = true ↔ _)
          rw [Bool.or_false, last]
          constructor
          · intro found
            exact ⟨[], [], rfl, found⟩
          · rintro ⟨run, rest, split, found⟩
            rw [(List.append_eq_nil_iff.1 split.symm).2] at found
            exact found
  | cons b bytes ih =>
      match after, tabulates with
      | here :: after, ⟨first, behind⟩ =>
          have later := ih behind
          refine ⟨?_, later⟩
          rw [Bool.or_eq_true, first, later.headD]
          constructor
          · rintro (found | ⟨run, rest, rfl, found⟩)
            · exact ⟨[], b :: bytes, rfl, found⟩
            · exact ⟨b :: run, rest, rfl, found⟩
          · rintro ⟨run, rest, split, found⟩
            cases run with
            | nil =>
                rw [List.nil_append] at split
                exact Or.inl (split ▸ found)
            | cons d run =>
                rw [List.cons_append, List.cons.injEq] at split
                exact Or.inr ⟨run, rest, split.2, found⟩

theorem Tabulates.congr {other : Bytes → Prop} (same : ∀ suffix, holds suffix ↔ other suffix)
    {bytes : Bytes} {table : List Bool} (tabulates : Tabulates holds bytes table) :
    Tabulates other bytes table := by
  have equal : holds = other := funext fun suffix => propext (same suffix)
  rwa [← equal]

section Items

variable {τ : Type} {piece : τ → Piece} {set : τ → ByteSet}

/-- The table of a glob of single bytes and runs tells which suffixes it matches. -/
theorem tabulates_piecesTable (single : ∀ t, (piece t).set? = some (set t))
    (pattern : List (Option τ)) (bytes : Bytes) :
    Tabulates (ItemMatch (fun t b => (set t).contains b = true) pattern) bytes
      (piecesTable bytes (endTable bytes) (pattern.map (itemPiece piece))) := by
  induction pattern with
  | nil => exact (tabulates_endTable bytes).congr fun suffix => ItemMatch.nil_iff.symm
  | cons token rest ih =>
      cases token with
      | none => exact ih.runTable.congr fun suffix => ItemMatch.star_iff.symm
      | some t =>
          rw [List.map_cons, piecesTable, itemPiece, Piece.table_of_set? (single t)]
          exact (ih.oneTable (set t)).congr fun suffix => ItemMatch.item_iff.symm

/-- A glob of single bytes and runs matches what its pieces match as items. -/
theorem matchBytes_itemPiece (single : ∀ t, (piece t).set? = some (set t))
    (pattern : List (Option τ)) (bytes : Bytes) :
    matchBytes (pattern.map (itemPiece piece)) bytes = true ↔
      ItemMatch (fun t b => (set t).contains b = true) pattern bytes :=
  (tabulates_piecesTable single pattern bytes).headD

/-- A glob of single bytes and runs does not nest. -/
theorem depth_itemPiece_le (single : ∀ t, (piece t).set? = some (set t))
    (pattern : List (Option τ)) : depth (pattern.map (itemPiece piece)) ≤ maxDepth := by
  have shallow : piecesDepth (pattern.map (itemPiece piece)) ≤ 2 := by
    induction pattern with
    | nil => exact Nat.zero_le 2
    | cons token rest ih =>
        rw [List.map_cons, piecesDepth, Nat.max_le]
        cases token with
        | none => exact ⟨Nat.le_succ 1, ih⟩
        | some t => exact ⟨Piece.depth_of_set? (single t), ih⟩
  rw [depth, maxDepth]
  omega

end Items

theorem map_tokenPiece (pattern : List (Option UInt8)) :
    pattern.map tokenPiece = pattern.map (itemPiece Piece.literal) :=
  List.map_congr_left fun token _ => by cases token <;> rfl

/-- A glob of bytes and runs matches what its bytes match with stars for its runs. -/
theorem matchBytes_iff (pattern : List (Option UInt8)) (bytes : Bytes) :
    matchBytes (pattern.map tokenPiece) bytes = true ↔ StarMatch pattern bytes := by
  rw [map_tokenPiece, matchBytes_itemPiece fun _ => rfl, StarMatch.iff_itemMatch]
  exact ItemMatch.congr fun b byte => (contains_singleton byte b).trans eq_comm

theorem depth_le (pattern : List (Option UInt8)) : depth (pattern.map tokenPiece) ≤ maxDepth := by
  rw [map_tokenPiece]
  exact depth_itemPiece_le (fun _ => rfl) pattern

end Folio.Glob
