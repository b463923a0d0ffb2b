import Folio.Glob.Piece

/-!
# Globs as regular expressions

A glob is carried out as a regular expression over bytes, and such an expression may
nest only so deep.  Depth counts what stands inside what: a group, several
alternatives, several items in a row, a repetition, a class and several members of a
class are one level each.
-/

namespace Folio.Glob

def maxDepth : Nat := 250

def specialChars : List Char :=
  ['\\', '.', '+', '*', '?', '(', ')', '|', '[', ']', '\x7b', '\x7d', '^', '$', '#', '&', '-', '~']

/-- A byte that stands for itself; bytes beyond ASCII are written as numbers. -/
def byteText (b : UInt8) : List Char :=
  let c := Char.ofNat b.toNat
  if 0x80 ≤ b then ['\\', 'x'] ++ Nat.toDigits 16 b.toNat
  else if c ∈ specialChars then ['\\', c]
  else [c]

def rangeText (range : UInt8 × UInt8) : List Char :=
  if range.1 = range.2 then byteText range.1 else byteText range.1 ++ '-' :: byteText range.2

def ByteSet.text (set : ByteSet) : List Char :=
  '[' :: (if set.negated then ['^'] else []) ++ set.ranges.flatMap rangeText ++ [']']

def ByteSet.depth (set : ByteSet) : Nat := if set.ranges.length < 2 then 1 else 2

/-- One level more if there are several things side by side. -/
def depthOfSeveral (count inside : Nat) : Nat := if count < 2 then inside else inside + 1

/-- How many items of an expression a piece is; a group without text is none. -/
def Piece.itemCount : Piece → Nat
  | .choice [[]] => 0
  | .directories .back => 2
  | _ => 1

def itemCount : List Piece → Nat
  | [] => 0
  | piece :: rest => piece.itemCount + itemCount rest

mutual

def Piece.depth : Piece → Nat
  | .literal _ | .any => 0
  | .one set => set.depth
  | .run | .directories .back => 1
  | .directories .front | .directories .between => 4
  | .choice [[]] => 0
  | .choice alternatives =>
      depthOfSeveral alternatives.length (choiceDepth alternatives) + 1

def piecesDepth : List Piece → Nat
  | [] => 0
  | piece :: rest => max piece.depth (piecesDepth rest)

def choiceDepth : List (List Piece) → Nat
  | [] => 0
  | pieces :: rest =>
      max (depthOfSeveral (itemCount pieces) (piecesDepth pieces)) (choiceDepth rest)

end

mutual

def Piece.text : Piece → List Char
  | .literal b => byteText b
  | .any => ['.']
  | .one set => set.text
  | .run => ['.', '*']
  | .directories .front => "(?:/?|.*/)".toList
  | .directories .between => "(?:/|/.*/)".toList
  | .directories .back => "/.*".toList
  | .choice [[]] => []
  | .choice alternatives => "(?:".toList ++ choiceText alternatives ++ [')']

def piecesText : List Piece → List Char
  | [] => []
  | piece :: rest => piece.text ++ piecesText rest

/-- Alternatives with bars between them. -/
def choiceText : List (List Piece) → List Char
  | [] => []
  | [pieces] => piecesText pieces
  | pieces :: next :: rest => piecesText pieces ++ '|' :: choiceText (next :: rest)

end

/-- How deep a whole glob nests; the beginning and the end of the text are items of it. -/
def depth (pieces : List Piece) : Nat := piecesDepth pieces + 1

def expression (pieces : List Piece) : String :=
  String.ofList ("(?-u)^".toList ++ piecesText pieces ++ ['$'])

end Folio.Glob
