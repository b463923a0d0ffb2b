import Folio.Glob.Piece

/-!
# Compiling glob text

In a glob, `?` is any byte, `*` any run of bytes, `[...]` one byte of a class,
`{...,...}` a choice and `**` between slashes any directories; a backslash
makes the next character literal.  Compiling is one pass over the characters by a
machine that takes one character at a time.  Its state is what has been built of
the innermost open group, the groups around it, and what the next character
belongs to, such as the class that has been read so far inside a bracket.
-/

namespace Folio.Glob

inductive Problem where
  | unclosedClass
  | invalidRange (first last : Char)
  | unopenedGroup
  | unclosedGroup
  | danglingEscape
  deriving DecidableEq

def Problem.message : Problem → String
  | unclosedClass => "unclosed character class; missing ']'"
  | invalidRange first last =>
      "invalid range; '" ++ first.toString ++ "' > '" ++ last.toString ++ "'"
  | unopenedGroup =>
      "unopened alternate group; missing '\x7b' (maybe escape '\x7d' with '[\x7d]'?)"
  | unclosedGroup =>
      "unclosed alternate group; missing '\x7d' (maybe escape '\x7b' with '[\x7b]'?)"
  | danglingEscape => "dangling '\\'"

structure OpenGroup where
  /-- The pieces in front of the group, the latest first. -/
  before : List Piece
  /-- The alternatives read so far, the latest first. -/
  alternatives : List (List Piece)

structure Build where
  /-- The pieces of the innermost group's current alternative, the latest first. -/
  pieces : List Piece
  /-- The open groups, the innermost first. -/
  groups : List OpenGroup

namespace Build

def start : Build := ⟨[], []⟩

def push (build : Build) (piece : Piece) : Build :=
  { build with pieces := piece :: build.pieces }

/-- Add a character that stands for itself, as one piece per byte. -/
def literal (build : Build) (c : Char) : Build :=
  (String.utf8EncodeChar c).foldl (fun build b => build.push (.literal b)) build

def openGroup (build : Build) : Build := ⟨[], ⟨build.pieces, []⟩ :: build.groups⟩

/-- Begin the next alternative of the innermost group; `none` outside groups. -/
def nextAlternative? (build : Build) : Option Build :=
  match build.groups with
  | [] => none
  | group :: groups =>
      some ⟨[], ⟨group.before, build.pieces.reverse :: group.alternatives⟩ :: groups⟩

/-- Whether pieces match only the empty sequence because they hold no text. -/
def holdsNothing (pieces : List Piece) : Bool :=
  pieces.all fun
    | .choice [[]] => true
    | _ => false

/-- End the innermost group; alternatives that hold nothing are left out. -/
def closeGroup? (build : Build) : Option Build :=
  match build.groups with
  | [] => none
  | group :: groups =>
      let alternatives := (build.pieces.reverse :: group.alternatives).reverse
      let kept := alternatives.filter fun pieces => !holdsNothing pieces
      let piece := Piece.choice (if kept.isEmpty then [[]] else kept)
      some ⟨piece :: group.before, groups⟩

/-- Replace the last piece by a wildcard for directories, unless it is one already. -/
def deepen (build : Build) (place : Place) : Build :=
  match build.pieces with
  | .directories .front :: _ | .directories .back :: _ => build
  | _ :: pieces => { build with pieces := .directories place :: pieces }
  | [] => build

def finish (build : Build) : Except Problem (List Piece) :=
  if build.groups.isEmpty then .ok build.pieces.reverse else .error .unclosedGroup

end Build

structure ClassBuild where
  negated : Bool
  /-- No member has been read yet. -/
  isFirst : Bool
  /-- A dash was read that may begin the end of a range. -/
  inRange : Bool
  /-- The ranges, the latest first. -/
  ranges : List (Char × Char)

namespace ClassBuild

def start (negated : Bool) : ClassBuild := ⟨negated, true, false, []⟩

/-- Add a member, or make it the end of the last range. -/
def add (cls : ClassBuild) (c : Char) : Except Problem ClassBuild :=
  match cls.inRange, cls.ranges with
  | true, (first, _) :: ranges =>
      if c < first then .error (.invalidRange first c)
      else .ok ⟨cls.negated, false, false, (first, c) :: ranges⟩
  | _, ranges => .ok ⟨cls.negated, false, false, (c, c) :: ranges⟩

/-- Read a dash: a member in front or behind another dash, else the middle of a range. -/
def dash (cls : ClassBuild) : Except Problem ClassBuild :=
  if cls.isFirst || cls.inRange then cls.add '-' else .ok { cls with inRange := true }

/--
The bytes of a range of characters.  A character of several bytes counts as that
many members, and the range itself runs from the last byte of its first
character to the first byte of its last one.
-/
def rangeBytes (range : Char × Char) : List (UInt8 × UInt8) :=
  let first := String.utf8EncodeChar range.1
  let last := String.utf8EncodeChar range.2
  let single (b : UInt8) := (b, b)
  if range.1 = range.2 then first.map single
  else
    match first.getLast?, last with
    | some low, high :: later => first.dropLast.map single ++ (low, high) :: later.map single
    | _, _ => []

/-- The set of bytes of a finished class; a dash left over is a member. -/
def toByteSet (cls : ClassBuild) : ByteSet :=
  let ranges := if cls.inRange then ('-', '-') :: cls.ranges else cls.ranges
  ⟨cls.negated, ranges.reverse.flatMap rangeBytes⟩

end ClassBuild

inductive Mode where
  | plain
  /-- Right behind a backslash. -/
  | escaped
  /-- Right behind an opening bracket. -/
  | bracket
  | inClass (cls : ClassBuild)
  /-- Right behind one star, in front of which `before` stands. -/
  | star (before : Option Char)
  /-- Right behind two stars that may become a wildcard for directories. -/
  | stars (atFront : Bool)

structure Reading where
  mode : Mode
  /-- The last character. -/
  previous : Option Char
  build : Build

/-- Whether a wildcard for directories may begin behind this character. -/
def startsDirectories (build : Build) (before : Option Char) : Bool :=
  before == some '/' ||
    (!build.groups.isEmpty && (before == some ',' || before == some '\x7b'))

/-- Read a character that belongs to nothing in front of it. -/
def readPlain (build : Build) (previous : Option Char) (c : Char) :
    Except Problem (Mode × Build) :=
  if c = '\\' then .ok (.escaped, build)
  else if c = '[' then .ok (.bracket, build)
  else if c = '?' then .ok (.plain, build.push .any)
  else if c = '\x7b' then .ok (.plain, build.openGroup)
  else if c = '\x7d' then
    match build.closeGroup? with
    | some build => .ok (.plain, build)
    | none => .error .unopenedGroup
  else if c = ',' then .ok (.plain, build.nextAlternative?.getD (build.literal c))
  else if c = '*' then .ok (.star previous, build)
  else .ok (.plain, build.literal c)

def readBracket (c : Char) : Except Problem ClassBuild :=
  if c = '!' ∨ c = '^' then .ok (.start true)
  else if c = '-' then (ClassBuild.start false).dash
  else (ClassBuild.start false).add c

/-- Read a character of a class; the bracket that ends it is a piece. -/
def readInClass (build : Build) (cls : ClassBuild) (c : Char) : Except Problem (Mode × Build) :=
  if c = ']' ∧ cls.isFirst = false then .ok (.plain, build.push (.one cls.toByteSet))
  else if c = '-' then cls.dash.map fun cls => (.inClass cls, build)
  else (cls.add c).map fun cls => (.inClass cls, build)

/-- Read a second star; where no wildcard for directories may begin it is one more run. -/
def secondStar (build : Build) (before : Option Char) : Mode × Build :=
  if build.pieces.isEmpty then (.stars true, build)
  else if startsDirectories build before then (.stars false, build)
  else (.plain, (build.push .run).push .run)

/-- Read the character behind two stars that may become a wildcard for directories. -/
def readBehindStars (build : Build) (atFront : Bool) (c : Char) :
    Except Problem (Mode × Build) :=
  let asRuns := readPlain ((build.push .run).push .run) (some '*') c
  if atFront then
    if c = '/' then .ok (.plain, build.push (.directories .front)) else asRuns
  else if c = '/' then .ok (.plain, build.deepen .between)
  else if !build.groups.isEmpty && (c == ',' || c == '\x7d') then
    readPlain (build.deepen .back) (some '*') c
  else asRuns

def Reading.step (reading : Reading) (c : Char) : Except Problem Reading := do
  let build := reading.build
  let (mode, build) ←
    match reading.mode with
    | .plain => readPlain build reading.previous c
    | .escaped => .ok (.plain, build.literal c)
    | .bracket => (readBracket c).map fun cls => (.inClass cls, build)
    | .inClass cls => readInClass build cls c
    | .star before =>
        if c = '*' then .ok (secondStar build before)
        else readPlain (build.push .run) (some '*') c
    | .stars atFront => readBehindStars build atFront c
  .ok ⟨mode, some c, build⟩

def Reading.finish (reading : Reading) : Except Problem (List Piece) :=
  match reading.mode with
  | .plain => reading.build.finish
  | .escaped => .error .danglingEscape
  | .bracket | .inClass _ => .error .unclosedClass
  | .star _ => (reading.build.push .run).finish
  | .stars true => (reading.build.push (.directories .front)).finish
  | .stars false => (reading.build.deepen .back).finish

def compile (glob : List Char) : Except Problem (List Piece) := do
  let reading ← glob.foldlM Reading.step ⟨.plain, none, .start⟩
  reading.finish

end Folio.Glob
