import Folio.Proofs.Glob.Reading

/-!
# What key patterns say

A key pattern is a row of stars and items, and an item stands for one character: itself,
any one, or one that is in a class.  A class has members and ranges between its brackets;
a mark in front of them turns it into what they leave out, and whatever follows a backslash
is a member.  This is about how patterns are written and what they are meant to match.
-/

namespace Folio

inductive ClassItem where
  /-- A member behind a backslash. -/
  | escaped (c : Char)
  | range (first last : Char)
  | plain (c : Char)
  deriving DecidableEq

namespace ClassItem

def text : ClassItem → List Char
  | escaped c => ['\\', c]
  | range first last => [first, '-', last]
  | plain c => [c]

/--
Whether a part of a class is written as it should be: ranges are of letters and digits, and what has
a meaning inside classes is escaped.
-/
def WellFormed : ClassItem → Prop
  | escaped c => c.toNat < 0x80
  | range first last => first.isAlphanum = true ∧ last.isAlphanum = true ∧ first ≤ last
  | plain c => c.toNat < 0x80 ∧ c ≠ ']' ∧ c ≠ '\\' ∧ c ≠ '-'

instance (item : ClassItem) : Decidable item.WellFormed :=
  match item with
  | escaped c => inferInstanceAs (Decidable (c.toNat < 0x80))
  | range first last =>
      inferInstanceAs (Decidable (first.isAlphanum = true ∧ last.isAlphanum = true ∧ first ≤ last))
  | plain c => inferInstanceAs (Decidable (c.toNat < 0x80 ∧ c ≠ ']' ∧ c ≠ '\\' ∧ c ≠ '-'))

/-- The first and the last character that a part of a class stands for. -/
def bounds : ClassItem → Char × Char
  | escaped c | plain c => (c, c)
  | range first last => (first, last)

def Has (c : Char) : ClassItem → Prop
  | escaped d | plain d => c = d
  | range first last => first ≤ c ∧ c ≤ last

end ClassItem

structure CharClass where
  /-- The mark that negates the class, if there is one. -/
  mark : Option Char
  items : List ClassItem
  negates : ∀ c ∈ mark, c = '^' ∨ c = '!'
  nonempty : items ≠ []
  wellFormed : ∀ item ∈ items, item.WellFormed
  /-- What comes first is not taken for a mark. -/
  unmarked : items.head? ≠ some (.plain '^') ∧ items.head? ≠ some (.plain '!')

namespace CharClass

def text (cls : CharClass) : List Char :=
  '[' :: (cls.mark.toList ++ (cls.items.flatMap ClassItem.text ++ [']']))

def Accepts (cls : CharClass) (c : Char) : Prop :=
  if cls.mark.isSome then ∀ item ∈ cls.items, ¬item.Has c else ∃ item ∈ cls.items, item.Has c

/--
Whether what is escaped in a class would have no meaning without its backslash: a bracket would not
end the class because nothing is in front of it, a dash would not make a range because nothing is in
front of it or behind it, and a mark would not negate because it is not in front or not the first one.
-/
structure EscapesIdle (cls : CharClass) : Prop where
  bracket : .escaped ']' ∉ cls.items.tail
  dash : .escaped '-' ∉ cls.items.tail.dropLast
  mark : cls.mark = none →
    cls.items.head? ≠ some (.escaped '^') ∧ cls.items.head? ≠ some (.escaped '!')

end CharClass

/-- An item of a key pattern, which stands for one character. -/
inductive KeyItem where
  | literal (c : Char)
  | escaped (c : Char)
  | any
  | one (cls : CharClass)

namespace KeyItem

def text : KeyItem → List Char
  | literal c => [c]
  | escaped c => ['\\', c]
  | any => ['?']
  | one cls => cls.text

/-- Whether an item is written as it should be: in ASCII, and literal only where it has no meaning. -/
def WellFormed : KeyItem → Prop
  | literal c => c.toNat < 0x80 ∧ c ≠ '\\' ∧ c ≠ '*' ∧ c ≠ '?' ∧ c ≠ '['
  | escaped c => c.toNat < 0x80
  | any | one _ => True

def Accepts : KeyItem → Char → Prop
  | literal d, c | escaped d, c => c = d
  | any, _ => True
  | one cls, c => cls.Accepts c

/-- Whether what is escaped in an item would have no meaning without its backslash, if it is a class. -/
def EscapesIdle : KeyItem → Prop
  | one cls => cls.EscapesIdle
  | literal _ | escaped _ | any => True

end KeyItem

/-- The text of a key pattern; `none` is a star. -/
def itemsText (pattern : List (Option KeyItem)) : String :=
  String.ofList (pattern.flatMap (starText KeyItem.text))

end Folio
