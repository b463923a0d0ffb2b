import Folio.Text.Utf8

/-!
# Glob pieces and matching

A compiled glob is a list of pieces, and it matches a byte sequence as a whole.
Matching keeps a table with one entry per suffix of the bytes: whether what
follows in the glob matches that suffix.  Each piece turns the table of what
follows it into its own, from right to left, so the time is linear in the glob
and in the bytes, however many stars there are.
-/

namespace Folio.Glob

/-- A set of bytes: those in some range, or those in none. -/
structure ByteSet where
  negated : Bool
  ranges : List (UInt8 × UInt8)
  deriving DecidableEq

namespace ByteSet

def contains (set : ByteSet) (b : UInt8) : Bool :=
  set.negated != set.ranges.any fun range => range.1 ≤ b && b ≤ range.2

def all : ByteSet := ⟨true, []⟩

def singleton (b : UInt8) : ByteSet := ⟨false, [(b, b)]⟩

end ByteSet

inductive Place where
  /-- At the front: nothing, or anything up to a slash. -/
  | front
  /-- Between two slashes, which may be one and the same. -/
  | between
  /-- At the end: a slash and anything behind it. -/
  | back
  deriving DecidableEq

inductive Piece where
  /-- One given byte. -/
  | literal (byte : UInt8)
  /-- Any one byte. -/
  | any
  /-- One byte of a class. -/
  | one (set : ByteSet)
  /-- Any run of bytes. -/
  | run
  /-- Whole directories. -/
  | directories (place : Place)
  /-- Any one of several globs. -/
  | choice (alternatives : List (List Piece))

def oneTable (set : ByteSet) : Bytes → List Bool → List Bool
  | b :: bytes, _ :: after => (set.contains b && after.headD false) :: oneTable set bytes after
  | _, _ => [false]

/-- The table of any run of bytes: some later suffix matches what follows. -/
def runTable : List Bool → List Bool
  | [] => []
  | here :: after =>
      let later := runTable after
      (here || later.headD false) :: later

def eitherTable (a b : List Bool) : List Bool := List.zipWith (· || ·) a b

def directoriesTable (place : Place) (bytes : Bytes) (after : List Bool) : List Bool :=
  let slash := oneTable (.singleton 47) bytes
  match place with
  | .front => eitherTable after (runTable (slash after))
  | .between => eitherTable (slash after) (slash (runTable (slash after)))
  | .back => slash (runTable after)

mutual

def Piece.table (bytes : Bytes) (after : List Bool) : Piece → List Bool
  | .literal byte => oneTable (.singleton byte) bytes after
  | .any => oneTable .all bytes after
  | .one set => oneTable set bytes after
  | .run => runTable after
  | .directories place => directoriesTable place bytes after
  | .choice alternatives => choiceTable bytes after alternatives

def piecesTable (bytes : Bytes) (after : List Bool) : List Piece → List Bool
  | [] => after
  | piece :: rest => piece.table bytes (piecesTable bytes after rest)

def choiceTable (bytes : Bytes) (after : List Bool) : List (List Piece) → List Bool
  | [] => after.map fun _ => false
  | pieces :: rest => eitherTable (piecesTable bytes after pieces) (choiceTable bytes after rest)

end

/-- The table of the empty glob: only the empty suffix matches. -/
def endTable : Bytes → List Bool
  | [] => [true]
  | _ :: bytes => false :: endTable bytes

/-- Whether pieces match a byte sequence as a whole. -/
def matchBytes (pieces : List Piece) (bytes : Bytes) : Bool :=
  (piecesTable bytes (endTable bytes) pieces).headD false

end Folio.Glob
