import Folio.Proofs.KeyPattern
import Folio.Proofs.KeyPattern.Item

/-!
# Classes in key patterns

In the normal form of a class the members stand without their backslashes.  Unless one of
them gets a meaning by that, the class is read as the set of its members, so a pattern of
ASCII matches what it says, item by item.
-/

namespace Folio

open Text

namespace ClassItem

/-- What a part of a class is in the normal form. -/
def bare : ClassItem → List Char
  | escaped c | plain c => [c]
  | range first last => [first, '-', last]

theorem bare_eq (item : ClassItem) : item.bare = item.bounds.1 :: item.bare.tail := by
  cases item <;> rfl

theorem ne_of_isAlphanum {c d : Char} (alphanum : c.isAlphanum = true)
    (other : d.isAlphanum = false) : c ≠ d := by
  rintro rfl
  rw [alphanum] at other
  cases other

theorem toNat_lt_of_isAlphanum {c : Char} (alphanum : c.isAlphanum = true) : c.toNat < 0x80 := by
  have below : ∀ last : Char, last.toNat < 0x80 → c.val ≤ last.val → c.toNat < 0x80 :=
    fun last bound order => Nat.lt_of_le_of_lt (UInt32.le_iff_toNat_le.1 order) bound
  have either : ((c.isUpper || c.isLower) || c.isDigit) = true := alphanum
  rw [Bool.or_eq_true, Bool.or_eq_true] at either
  rcases either with (upper | lower) | digit
  · apply below 'Z' (by decide)
    exact (of_decide_eq_true upper).2
  · apply below 'z' (by decide)
    exact of_decide_eq_true (Bool.and_eq_true_iff.1 lower).2
  · apply below '9' (by decide)
    exact of_decide_eq_true (Bool.and_eq_true_iff.1 digit).2

/-- The bounds of a part of a class are in ASCII, and in order. -/
theorem WellFormed.bounds {item : ClassItem} (wellFormed : item.WellFormed) :
    item.bounds.1.toNat < 0x80 ∧ item.bounds.2.toNat < 0x80 ∧ item.bounds.1 ≤ item.bounds.2 := by
  cases item with
  | escaped c => exact ⟨wellFormed, wellFormed, Char.le_refl c⟩
  | range first last =>
      exact ⟨toNat_lt_of_isAlphanum wellFormed.1, toNat_lt_of_isAlphanum wellFormed.2.1,
        wellFormed.2.2⟩
  | plain c => exact ⟨wellFormed.1, wellFormed.1, Char.le_refl c⟩

theorem has_iff (item : ClassItem) (c : Char) :
    item.Has c ↔ item.bounds.1 ≤ c ∧ c ≤ item.bounds.2 := by
  have single : ∀ d, c = d ↔ d ≤ c ∧ c ≤ d := by
    intro d
    constructor
    · rintro rfl
      exact ⟨Char.le_refl c, Char.le_refl c⟩
    · rintro ⟨low, high⟩
      exact Char.le_antisymm high low
  cases item with
  | escaped d => exact single d
  | range first last => exact Iff.rfl
  | plain d => exact single d

/-! ## The normal form -/

theorem normalChars_member {c : Char} (noBackslash : c ≠ '\\') (noClose : c ≠ ']')
    (rest : List Char) : normalChars .inClass (c :: rest) = c :: normalChars .inClass rest := by
  rw [normalChars, normalStep, normalInClass, if_neg noBackslash, if_neg noClose]
  rfl

/-- In the normal form a part of a class stands without its backslash. -/
theorem WellFormed.normalChars {item : ClassItem} (wellFormed : item.WellFormed)
    (rest : List Char) :
    normalChars .inClass (item.text ++ rest) = item.bare ++ normalChars .inClass rest := by
  cases item with
  | escaped c => rfl
  | plain c =>
      obtain ⟨-, noClose, noBackslash, -⟩ := wellFormed
      exact normalChars_member noBackslash noClose rest
  | range first last =>
      obtain ⟨low, high, -⟩ := wellFormed
      have noBackslash : '\\'.isAlphanum = false := by decide
      have noClose : ']'.isAlphanum = false := by decide
      rw [text, List.cons_append, List.cons_append, List.singleton_append,
        normalChars_member (ne_of_isAlphanum low noBackslash) (ne_of_isAlphanum low noClose),
        normalChars_member (by decide) (by decide),
        normalChars_member (ne_of_isAlphanum high noBackslash) (ne_of_isAlphanum high noClose)]
      rfl

theorem normalChars_items {items : List ClassItem} (wellFormed : ∀ item ∈ items, item.WellFormed)
    (rest : List Char) :
    Folio.normalChars .inClass (items.flatMap text ++ rest) =
      items.flatMap bare ++ Folio.normalChars .inClass rest := by
  induction items with
  | nil => rfl
  | cons item more ih =>
      have behind := ih fun other mem => wellFormed other (List.mem_cons_of_mem item mem)
      rw [List.flatMap_cons, List.append_assoc, (wellFormed item List.mem_cons_self).normalChars,
        behind, List.flatMap_cons, List.append_assoc]

/-- What comes first in a class is no mark, if no mark is written there. -/
theorem normalChars_bracket {item : ClassItem} (wellFormed : item.WellFormed)
    (noMark : item ≠ .plain '^') (rest : List Char) :
    Folio.normalChars .bracket (item.text ++ rest) = Folio.normalChars .inClass (item.text ++ rest) := by
  have same : ∀ (c : Char) (more : List Char), c ≠ '^' →
      Folio.normalChars .bracket (c :: more) = Folio.normalChars .inClass (c :: more) := by
    intro c more noMark
    have step : normalStep .bracket c = normalStep .inClass c := if_neg noMark
    rw [Folio.normalChars, Folio.normalChars, step]
  cases item with
  | escaped c => exact same '\\' _ (by decide)
  | range first last => exact same first _ (ne_of_isAlphanum wellFormed.1 (by decide))
  | plain c =>
      refine same c _ ?_
      rintro rfl
      exact noMark rfl

end ClassItem

namespace CharClass

def normal (cls : CharClass) : List Char :=
  '[' :: (cls.mark.toList.map (fun _ => '!') ++ (cls.items.flatMap ClassItem.bare ++ [']']))

theorem hasNormal (cls : CharClass) : HasNormal cls.text cls.normal := by
  intro afterStar rest
  obtain ⟨mark, items, negates, nonempty, wellFormed, unmarked⟩ := cls
  have closed : normalChars .inClass (items.flatMap ClassItem.text ++ ([']'] ++ rest)) =
      items.flatMap ClassItem.bare ++ ([']'] ++ normalChars (.outside false) rest) := by
    rw [ClassItem.normalChars_items wellFormed]
    rfl
  have opened : ∀ more, normalChars (.outside afterStar) ('[' :: more) =
      '[' :: normalChars .bracket more := fun _ => rfl
  rw [text, normal, List.cons_append, List.cons_append, opened, List.append_assoc,
    List.append_assoc, List.append_assoc, List.append_assoc, ← closed]
  cases mark with
  | some c => rcases negates c rfl with rfl | rfl <;> rfl
  | none =>
      cases items with
      | nil => exact absurd rfl nonempty
      | cons item more =>
          have noMark : item ≠ .plain '^' := fun same => unmarked.1 (congrArg some same)
          have first := ClassItem.normalChars_bracket (wellFormed item List.mem_cons_self) noMark
          rw [Option.toList_none, List.map_nil, List.nil_append, List.nil_append, List.flatMap_cons,
            List.append_assoc, first]

def byteSet (cls : CharClass) : Glob.ByteSet :=
  ⟨cls.mark.isSome, cls.items.map fun item => (item.bounds.1.toUInt8, item.bounds.2.toUInt8)⟩

end CharClass

/-! ## Reading a class -/

namespace Glob

/-- Within a class whose parts so far have these bounds, the latest first. -/
def classReading (negated : Bool) (ranges : List (Char × Char)) (last : Option Char)
    (build : Build) : Reading :=
  ⟨.inClass ⟨negated, false, false, ranges⟩, last, build⟩

theorem foldlM_step_cons {reading next : Reading} {c : Char} (step : reading.step c = .ok next)
    (rest : List Char) :
    (c :: rest).foldlM Reading.step reading = rest.foldlM Reading.step next := by
  rw [List.foldlM_cons, step]
  rfl

section Class

variable {negated : Bool} {ranges : List (Char × Char)} {last : Option Char} {build : Build}

/-- Behind the mark of a class any character is a member. -/
theorem step_behind_mark (c : Char) :
    Reading.step ⟨.inClass (.start true), last, build⟩ c =
      .ok (classReading true [(c, c)] (some c) build) := by
  unfold Reading.step readInClass
  dsimp only
  rw [if_neg (by rintro ⟨-, no⟩; cases no)]
  split
  · rename_i dash
    subst dash
    rfl
  · rfl

/-- In front of a class any character but a mark is a member. -/
theorem step_behind_bracket {c : Char} (noMark : ¬(c = '!' ∨ c = '^')) :
    Reading.step ⟨.bracket, last, build⟩ c =
      .ok (classReading false [(c, c)] (some c) build) := by
  unfold Reading.step readBracket
  dsimp only
  rw [if_neg noMark]
  split
  · rename_i dash
    subst dash
    rfl
  · rfl

theorem step_member {c : Char} (noClose : c ≠ ']') (noDash : c ≠ '-') :
    (classReading negated ranges last build).step c =
      .ok (classReading negated ((c, c) :: ranges) (some c) build) := by
  unfold Reading.step classReading readInClass
  dsimp only
  rw [if_neg fun close => noClose close.1, if_neg noDash]
  rfl

/-- A dash behind a member begins a range. -/
theorem step_dash :
    (classReading negated ranges last build).step '-' =
      .ok ⟨.inClass ⟨negated, false, true, ranges⟩, some '-', build⟩ := rfl

theorem step_range {first final : Char} (noClose : final ≠ ']') (noDash : final ≠ '-')
    (order : first ≤ final) :
    Reading.step ⟨.inClass ⟨negated, false, true, (first, first) :: ranges⟩, last, build⟩ final =
      .ok (classReading negated ((first, final) :: ranges) (some final) build) := by
  unfold Reading.step readInClass
  dsimp only
  rw [if_neg fun close => noClose close.1, if_neg noDash, ClassBuild.add]
  dsimp only
  rw [if_neg (Char.not_lt.2 order)]
  rfl

/-- Behind the first character of a part of a class, the rest of the part sets its bounds. -/
theorem read_bounds {item : ClassItem} (wellFormed : item.WellFormed) :
    ∃ next, item.bare.tail.foldlM Reading.step
        (classReading negated ((item.bounds.1, item.bounds.1) :: ranges) last build) =
      .ok (classReading negated (item.bounds :: ranges) next build) := by
  cases item with
  | escaped c => exact ⟨last, rfl⟩
  | plain c => exact ⟨last, rfl⟩
  | range first final =>
      obtain ⟨-, high, order⟩ := wellFormed
      have noClose : final ≠ ']' := ClassItem.ne_of_isAlphanum high (by decide)
      have noDash : final ≠ '-' := ClassItem.ne_of_isAlphanum high (by decide)
      refine ⟨some final, ?_⟩
      rw [ClassItem.bare, List.tail_cons, foldlM_step_cons step_dash]
      exact foldlM_step_cons (step_range noClose noDash order) []

/-- A part of a class that has no meaning of its own is read as its bounds. -/
theorem read_item {item : ClassItem} (wellFormed : item.WellFormed)
    (noClose : item ≠ .escaped ']') (noDash : item ≠ .escaped '-') :
    ∃ next, item.bare.foldlM Reading.step (classReading negated ranges last build) =
      .ok (classReading negated (item.bounds :: ranges) next build) := by
  have member : item.bounds.1 ≠ ']' ∧ item.bounds.1 ≠ '-' := by
    cases item with
    | escaped c =>
        exact ⟨fun same => noClose (congrArg ClassItem.escaped same),
          fun same => noDash (congrArg ClassItem.escaped same)⟩
    | range first final =>
        exact ⟨ClassItem.ne_of_isAlphanum wellFormed.1 (by decide),
          ClassItem.ne_of_isAlphanum wellFormed.1 (by decide)⟩
    | plain c => exact ⟨wellFormed.2.1, wellFormed.2.2.2⟩
  rw [item.bare_eq, foldlM_step_cons (step_member member.1 member.2)]
  exact read_bounds wellFormed

/-- The parts of a class behind the first one, and its end, are read as their bounds. -/
theorem read_items {items : List ClassItem} (wellFormed : ∀ item ∈ items, item.WellFormed)
    (noClose : .escaped ']' ∉ items) (noDash : .escaped '-' ∉ items.dropLast) :
    (items.flatMap ClassItem.bare ++ [']']).foldlM Reading.step
        (classReading negated ranges last build) =
      .ok ⟨.plain, some ']', build.push (.one (ClassBuild.toByteSet
        ⟨negated, false, false, (items.map ClassItem.bounds).reverse ++ ranges⟩))⟩ := by
  induction items generalizing ranges last with
  | nil => rfl
  | cons item rest ih =>
      have here := wellFormed item List.mem_cons_self
      have restWellFormed := fun other mem => wellFormed other (List.mem_cons_of_mem item mem)
      rw [List.mem_cons, not_or] at noClose
      rw [List.map_cons, List.reverse_cons, List.append_assoc, List.singleton_append]
      by_cases dash : item = .escaped '-'
      · -- A dash can only be the last part, where it is left over as a member.
        have final : rest = [] := by
          cases rest with
          | nil => rfl
          | cons next more =>
              rw [List.dropLast_cons_cons, List.mem_cons, not_or] at noDash
              exact absurd dash.symm noDash.1
        subst final dash
        rfl
      · obtain ⟨next, read⟩ := read_item here (Ne.symm noClose.1) dash
        have noDashBehind : .escaped '-' ∉ rest.dropLast := by
          cases rest with
          | nil => exact List.not_mem_nil
          | cons next more =>
              rw [List.dropLast_cons_cons, List.mem_cons, not_or] at noDash
              exact noDash.2
        rw [List.flatMap_cons, List.append_assoc, List.foldlM_append, read]
        exact ih restWellFormed noClose.2 noDashBehind

end Class

/-- The bytes of a range of ASCII are those between the bytes of its bounds. -/
theorem rangeBytes_ascii {range : Char × Char} (low : range.1.toNat < 0x80)
    (high : range.2.toNat < 0x80) :
    ClassBuild.rangeBytes range = [(range.1.toUInt8, range.2.toUInt8)] := by
  obtain ⟨first, final⟩ := range
  unfold ClassBuild.rangeBytes
  dsimp only
  rw [utf8EncodeChar_of_ascii low, utf8EncodeChar_of_ascii high]
  split
  · rename_i same
    subst same
    rfl
  · rfl

theorem toByteSet_items {items : List ClassItem} (wellFormed : ∀ item ∈ items, item.WellFormed)
    (negated : Bool) :
    ClassBuild.toByteSet ⟨negated, false, false, (items.map ClassItem.bounds).reverse⟩ =
      ⟨negated, items.map fun item => (item.bounds.1.toUInt8, item.bounds.2.toUInt8)⟩ := by
  have bytes : (items.map ClassItem.bounds).flatMap ClassBuild.rangeBytes =
      items.map fun item => (item.bounds.1.toUInt8, item.bounds.2.toUInt8) := by
    induction items with
    | nil => rfl
    | cons item rest ih =>
        obtain ⟨low, high, -⟩ := (wellFormed item List.mem_cons_self).bounds
        rw [List.map_cons, List.flatMap_cons, rangeBytes_ascii low high,
          ih fun other mem => wellFormed other (List.mem_cons_of_mem item mem)]
        rfl
  rw [ClassBuild.toByteSet, if_neg Bool.false_ne_true, List.reverse_reverse, bytes]

/-- What is behind the first character of a class makes it the set of its members. -/
theorem read_behind_first {item : ClassItem} {rest : List ClassItem}
    (wellFormed : ∀ part ∈ item :: rest, part.WellFormed) (noClose : .escaped ']' ∉ rest)
    (noDash : .escaped '-' ∉ rest.dropLast) (negated : Bool) (last : Option Char) (build : Build) :
    (item.bare.tail ++ (rest.flatMap ClassItem.bare ++ [']'])).foldlM Reading.step
        (classReading negated [(item.bounds.1, item.bounds.1)] last build) =
      .ok ⟨.plain, some ']', build.push (.one ⟨negated,
        (item :: rest).map fun part => (part.bounds.1.toUInt8, part.bounds.2.toUInt8)⟩)⟩ := by
  have first : ∃ next, item.bare.tail.foldlM Reading.step
      (classReading negated [(item.bounds.1, item.bounds.1)] last build) =
        .ok (classReading negated [item.bounds] next build) :=
    read_bounds (wellFormed item List.mem_cons_self)
  obtain ⟨next, read⟩ := first
  rw [List.foldlM_append, read, ← toByteSet_items wellFormed, List.map_cons, List.reverse_cons]
  exact read_items (fun part mem => wellFormed part (List.mem_cons_of_mem item mem)) noClose noDash

/-- What a class without a mark begins with is not taken for one. -/
theorem first_no_mark {cls : CharClass} (idle : cls.EscapesIdle) (noMark : cls.mark = none)
    {item : ClassItem} (first : cls.items.head? = some item) :
    ¬(item.bounds.1 = '!' ∨ item.bounds.1 = '^') := by
  obtain ⟨noEscapedCaret, noEscapedBang⟩ := idle.mark noMark
  obtain ⟨noCaret, noBang⟩ := cls.unmarked
  rw [first] at noEscapedCaret noEscapedBang noCaret noBang
  cases item with
  | escaped c =>
      rintro (rfl | rfl)
      · exact noEscapedBang rfl
      · exact noEscapedCaret rfl
  | plain c =>
      rintro (rfl | rfl)
      · exact noBang rfl
      · exact noCaret rfl
  | range low high =>
      have alphanum := (cls.wellFormed _ (List.mem_of_head? first)).1
      rintro (rfl | rfl)
      · exact absurd alphanum (by decide)
      · exact absurd alphanum (by decide)

/-- A class in which no escape is missed is read as the set of its members. -/
theorem readsAs_class (cls : CharClass) (idle : cls.EscapesIdle) :
    ReadsAs cls.normal [.one cls.byteSet] := by
  intro reading before holds
  refine ⟨_, ?_, rfl, holds.push (some ']') (.one cls.byteSet)⟩
  obtain ⟨previous, opened⟩ := step_of_ne_star holds (c := '[') (by decide)
  have opened : reading.step '[' = .ok ⟨.bracket, some '[', reading.settled⟩ := opened
  obtain ⟨item, rest, items⟩ := List.exists_cons_of_ne_nil cls.nonempty
  have wellFormed : ∀ part ∈ item :: rest, part.WellFormed := items ▸ cls.wellFormed
  have noClose : .escaped ']' ∉ rest := by simpa only [items, List.tail_cons] using idle.bracket
  have noDash : .escaped '-' ∉ rest.dropLast := by
    simpa only [items, List.tail_cons] using idle.dash
  rw [CharClass.normal, CharClass.byteSet, foldlM_step_cons opened, items, List.flatMap_cons,
    item.bare_eq, List.append_assoc, List.cons_append]
  cases marked : cls.mark with
  | some c =>
      have mark : Reading.step ⟨.bracket, some '[', reading.settled⟩ '!' =
          .ok ⟨.inClass (.start true), some '!', reading.settled⟩ := rfl
      rw [Option.toList_some, List.map_singleton, List.singleton_append, foldlM_step_cons mark,
        foldlM_step_cons (step_behind_mark _)]
      exact read_behind_first wellFormed noClose noDash true _ _
  | none =>
      have noMark := first_no_mark idle marked (congrArg List.head? items)
      rw [Option.toList_none, List.map_nil, List.nil_append,
        foldlM_step_cons (step_behind_bracket noMark)]
      exact read_behind_first wellFormed noClose noDash false _ _

end Glob

end Folio
