import Folio.Text.Split

/-!
# Paths of URLs

A path is a list of segments behind slashes.  A segment that is a dot stands for
nothing and one that is two dots takes the segment in front away; a dot may also be
written as `%2e`.  The name of a drive, a letter and a colon, is not taken away.
-/

namespace Folio.Redis.Url

def lowered (segment : List Char) : List Char := segment.map Char.toLower

/-- Whether a segment stands for nothing. -/
def isSingleDot (segment : List Char) : Bool :=
  [".", "%2e"].contains (String.ofList (lowered segment))

/-- Whether a segment takes the one in front of it away. -/
def isDoubleDot (segment : List Char) : Bool :=
  ["..", ".%2e", "%2e.", "%2e%2e"].contains (String.ofList (lowered segment))

/--
Whether a segment names a drive; a bar may stand for the colon, and a backslash may
follow with anything behind it.
-/
def isDrive (segment : List Char) : Bool :=
  match segment with
  | letter :: mark :: rest =>
      letter.isAlpha && (mark = ':' || mark = '|') && (rest.isEmpty || rest.head? = some '\\')
  | _ => false

/-- Take a segment away, the nearest first, unless it names a drive. -/
def withoutNearest (front : List (List Char)) : List (List Char) :=
  match front with
  | [] => []
  | nearest :: others => if isDrive nearest then nearest :: others else others

/-- Resolve segments, given those in front of them, the nearest first. -/
def resolveFrom (front : List (List Char)) : List (List Char) → List (List Char)
  | [] => front.reverse
  | segment :: rest =>
      let front :=
        if isDoubleDot segment then withoutNearest front
        else if isSingleDot segment then front
        else segment :: front
      let ends := rest.isEmpty && (isDoubleDot segment || isSingleDot segment)
      resolveFrom (if ends then [] :: front else front) rest

/-- A path without dot segments; the path begins with a slash or is empty. -/
def resolvePath (path : List Char) : List Char :=
  match path with
  | [] => []
  | _ :: segments =>
      '/' :: Text.joinChars '/' (resolveFrom [] (Text.splitChars '/' segments))

end Folio.Redis.Url
