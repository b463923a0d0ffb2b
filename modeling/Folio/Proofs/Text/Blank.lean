import Mathlib.Data.List.TakeWhile
import Folio.Text.Blank

/-!
# Trimmed texts

A text without the characters of a kind at its ends begins and ends with no such
character, and only such characters are cut off.  There is just one text like that, so
it does not matter how many of them stand at the ends, and a text that has none there is
left as it is.
-/

namespace Folio.Text

/-! ## Cutting off a kind of characters -/

section Strip

variable {kind : Char → Bool}

/-- Whether neither the first nor the last character of a text is of a kind. -/
structure Bare (kind : Char → Bool) (text : List Char) : Prop where
  head : ∀ c ∈ text.head?, kind c = false
  last : ∀ c ∈ text.getLast?, kind c = false

/-- Whether a text is another one without what stands at its ends and is of a kind. -/
def StripsTo (kind : Char → Bool) (text stripped : List Char) : Prop :=
  ∃ front back, text = front ++ stripped ++ back ∧ (∀ c ∈ front, kind c = true) ∧
    (∀ c ∈ back, kind c = true) ∧ Bare kind stripped

theorem head_dropWhile (text : List Char) : ∀ c ∈ (text.dropWhile kind).head?, kind c = false := by
  intro c first
  have bare := List.head?_dropWhile_not kind text
  rw [Option.mem_def.1 first] at bare
  exact bare

theorem dropWhile_append {front rest : List Char} (inFront : ∀ c ∈ front, kind c = true)
    (bare : ∀ c ∈ rest.head?, kind c = false) : (front ++ rest).dropWhile kind = rest := by
  rw [List.dropWhile_append_of_pos inFront]
  cases rest with
  | nil => rfl
  | cons c more => exact List.dropWhile_cons_of_neg (by rw [bare c rfl]; exact Bool.false_ne_true)

theorem stripsTo_stripChars (kind : Char → Bool) (text : List Char) :
    StripsTo kind text (stripChars kind text) := by
  let rest := text.dropWhile kind
  have cutBehind : rest = stripChars kind text ++ (rest.reverse.takeWhile kind).reverse := by
    rw [stripChars, ← List.reverse_append, List.takeWhile_append_dropWhile, List.reverse_reverse]
  refine ⟨text.takeWhile kind, (rest.reverse.takeWhile kind).reverse, ?_,
    fun c => List.mem_takeWhile_imp, fun c mem => List.mem_takeWhile_imp (List.mem_reverse.1 mem),
    fun c first => ?_, fun c last => ?_⟩
  · rw [List.append_assoc, ← cutBehind, List.takeWhile_append_dropWhile]
  · -- what is cut off behind leaves the first character alone
    apply head_dropWhile text c
    change c ∈ rest.head?
    rw [cutBehind, List.head?_append, Option.mem_def.1 first]
    rfl
  · rw [stripChars, List.getLast?_reverse] at last
    exact head_dropWhile _ c last

theorem StripsTo.eq_stripChars {text stripped : List Char} (strips : StripsTo kind text stripped) :
    stripped = stripChars kind text := by
  obtain ⟨front, back, rfl, inFront, behind, head, last⟩ := strips
  have behind' : ∀ c ∈ back.reverse, kind c = true := fun c mem => behind c (List.mem_reverse.1 mem)
  cases stripped with
  | nil =>
      rw [List.append_nil, stripChars, List.dropWhile_append_of_pos inFront,
        List.dropWhile_eq_nil_iff.2 behind]
      rfl
  | cons c more =>
      have cutInFront : (front ++ (c :: more ++ back)).dropWhile kind = c :: more ++ back :=
        dropWhile_append inFront head
      have cutBehind : (back.reverse ++ (c :: more).reverse).dropWhile kind = (c :: more).reverse :=
        dropWhile_append behind' (by rwa [List.head?_reverse])
      rw [stripChars, List.append_assoc, cutInFront, List.reverse_append, cutBehind,
        List.reverse_reverse]

theorem stripsTo_iff {text stripped : List Char} :
    StripsTo kind text stripped ↔ stripped = stripChars kind text :=
  ⟨StripsTo.eq_stripChars, fun same => same ▸ stripsTo_stripChars kind text⟩

/-- A text that has nothing of a kind at its ends is left as it is. -/
theorem Bare.stripChars_eq {text : List Char} (bare : Bare kind text) :
    stripChars kind text = text :=
  (stripsTo_iff.1 ⟨[], [], (List.append_nil text).symm, List.forall_mem_nil _,
    List.forall_mem_nil _, bare⟩).symm

/-- What stands around a text and is of a kind does not matter. -/
theorem stripChars_append {front back : List Char} (text : List Char)
    (inFront : ∀ c ∈ front, kind c = true) (behind : ∀ c ∈ back, kind c = true) :
    stripChars kind (front ++ text ++ back) = stripChars kind text := by
  obtain ⟨before, after, cut, before', after', bare⟩ := stripsTo_stripChars kind text
  refine (StripsTo.eq_stripChars ⟨front ++ before, after ++ back, ?_, ?_, ?_, bare⟩).symm
  · calc front ++ text ++ back
        = front ++ (before ++ stripChars kind text ++ after) ++ back := by rw [← cut]
      _ = front ++ before ++ stripChars kind text ++ (after ++ back) := by
          simp only [List.append_assoc]
  · exact fun c mem => (List.mem_append.1 mem).elim (inFront c) (before' c)
  · exact fun c mem => (List.mem_append.1 mem).elim (after' c) (behind c)

theorem bare_stripChars (kind : Char → Bool) (text : List Char) :
    Bare kind (stripChars kind text) := by
  obtain ⟨-, -, -, -, -, bare⟩ := stripsTo_stripChars kind text
  exact bare

theorem stripChars_eq_nil_iff {text : List Char} :
    stripChars kind text = [] ↔ ∀ c ∈ text, kind c = true := by
  constructor
  · intro none
    obtain ⟨front, back, cut, inFront, behind, -⟩ := stripsTo_stripChars kind text
    rw [none, List.append_nil] at cut
    rw [cut]
    exact fun c mem => (List.mem_append.1 mem).elim (inFront c) (behind c)
  · intro all
    have around : stripChars kind (text ++ [] ++ []) = stripChars kind [] :=
      stripChars_append [] all (List.forall_mem_nil _)
    rwa [List.append_nil, List.append_nil] at around

/-- Characters that are not of the kind are kept. -/
theorem mem_stripChars_iff {text : List Char} {c : Char} (other : kind c = false) :
    c ∈ stripChars kind text ↔ c ∈ text := by
  obtain ⟨front, back, cut, inFront, behind, -⟩ := stripsTo_stripChars kind text
  have notInFront : c ∉ front := fun mem => by rw [inFront c mem] at other; cases other
  have notBehind : c ∉ back := fun mem => by rw [behind c mem] at other; cases other
  have kept : c ∈ front ++ stripChars kind text ++ back ↔ c ∈ stripChars kind text := by
    rw [List.mem_append, List.mem_append, or_iff_right notInFront, or_iff_left notBehind]
  rw [← kept, ← cut]

end Strip

/-! ## Trimming -/

def TrimsTo (text trimmed : String) : Prop := StripsTo isBlank text.toList trimmed.toList

theorem toList_trim (text : String) : (trim text).toList = stripChars isBlank text.toList :=
  String.toList_ofList

theorem trimsTo_trim (text : String) : TrimsTo text (trim text) := by
  rw [TrimsTo, toList_trim]
  exact stripsTo_stripChars isBlank text.toList

end Folio.Text
