import Folio.Glob.Compile
import Folio.Glob.Expression
import Folio.Text.Quoted

/-!
# Key patterns

A key pattern selects the keys of a scan: `*` is any run of bytes, `?` any one
byte, `[...]` a class that `^` or `!` negates, and a backslash makes the next
character literal.  Braces stand for themselves and several stars are one.  A
pattern is compiled through its normal form, a glob with these meanings.  A bracket
that an escape puts into a class ends the class in the normal form, so that what
follows is glob text, braces included; such a glob may nest too deep.
-/

namespace Folio

/-- Where in a pattern the next character stands. -/
inductive PatternPlace where
  /-- Outside classes, perhaps right behind a star. -/
  | outside (afterStar : Bool)
  /-- Right behind the bracket that opens a class. -/
  | bracket
  | inClass
  /-- Right behind a backslash. -/
  | escaped (inClass : Bool)
  deriving DecidableEq

/-- Read a character of a class: what it becomes and where the next one stands. -/
def normalInClass (c : Char) : List Char × PatternPlace :=
  if c = '\\' then ([], .escaped true)
  else if c = ']' then ([c], .outside false)
  else ([c], .inClass)

/--
Read a character: what it becomes in the normal form and where the next one
stands.  Inside a class an escaped character stands without its backslash.
-/
def normalStep (place : PatternPlace) (c : Char) : List Char × PatternPlace :=
  match place with
  | .outside afterStar =>
      if c = '\\' then ([], .escaped false)
      else if c = '*' then (if afterStar then [] else [c], .outside true)
      else if c = '[' then ([c], .bracket)
      else if c = '\x7b' ∨ c = '\x7d' then (['\\', c], .outside false)
      else ([c], .outside false)
  | .bracket => if c = '^' then (['!'], .inClass) else normalInClass c
  | .inClass => normalInClass c
  | .escaped true => ([c], .inClass)
  | .escaped false => (['\\', c], .outside false)

/-- The normal form of a pattern from some place on; a backslash at the end is literal. -/
def normalChars (place : PatternPlace) : List Char → List Char
  | [] =>
      match place with
      | .escaped _ => ['\\', '\\']
      | _ => []
  | c :: rest => (normalStep place c).1 ++ normalChars (normalStep place c).2 rest

/-- A pattern that was refused, with its normal form and the reason. -/
structure BadPattern where
  pattern : String
  normal : String
  problem : Glob.Problem
  deriving DecidableEq

def BadPattern.message (bad : BadPattern) : String :=
  "invalid key pattern " ++ Text.quoted bad.pattern ++ ": error parsing glob '" ++ bad.normal ++
    "': " ++ bad.problem.message

inductive PatternFault where
  /-- The pattern was refused. -/
  | bad (bad : BadPattern)
  /-- Its glob nests too deep as an expression; compiling is broken off. -/
  | tooDeep (expression : String)
  deriving DecidableEq

structure KeyPattern where
  pieces : List Glob.Piece

namespace KeyPattern

/--
Compile a pattern for an engine that limits how deep an expression may nest.  Its other limit, on the
size of the compiled program, is left out.
-/
def compile (pattern : String) : Except PatternFault KeyPattern :=
  let normal := normalChars (.outside false) pattern.toList
  match Glob.compile normal with
  | .ok pieces =>
      if Glob.depth pieces ≤ Glob.maxDepth then .ok ⟨pieces⟩
      else .error (.tooDeep (Glob.expression pieces))
  | .error problem => .error (.bad ⟨pattern, String.ofList normal, problem⟩)

/-- Whether a key as a whole matches a pattern. -/
def isMatch (pattern : KeyPattern) (key : String) : Bool :=
  Glob.matchBytes pattern.pieces (Text.utf8 key)

end KeyPattern

end Folio
