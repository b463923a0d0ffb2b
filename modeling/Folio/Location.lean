import Folio.Misuse
import Folio.Text.Integer
import Folio.Text.Split

/-!
# Locations and schemas

A document lives at a location within a schema.  A location is a list of
segments and a schema has a name; neither a segment nor the name contains a
colon, so the key `schema:segment:...:segment` tells them all apart.
-/

namespace Folio

def delimiter : Char := ':'

/-- A position within a schema. -/
@[ext] structure Location where
  segments : List String
  nonempty : segments ≠ []
  no_delimiter : ∀ segment ∈ segments, delimiter ∉ segment.toList

namespace Location

instance : DecidableEq Location := fun a b =>
  if h : a.segments = b.segments then isTrue (Location.ext h)
  else isFalse fun eq => h (congrArg segments eq)

def ofSegments (segments : List String) : Except Misuse Location :=
  if nonempty : segments = [] then .error .noSegments
  else
    match bad : segments.find? (fun segment => delimiter ∈ segment.toList) with
    | some segment => .error (.segmentWithColon segment)
    | none => .ok ⟨segments, nonempty, fun segment mem => by
        simpa using List.find?_eq_none.1 bad segment mem⟩

/-- The location whose segments are whole numbers in decimal. -/
def ofIndices (indices : List Int64) : Except Misuse Location :=
  ofSegments (indices.map fun i => Text.integer i.toInt)

def ofText (text : String) : Except Misuse Location :=
  if text.isEmpty then .error .emptyLocation
  else
    .ok ⟨Text.split delimiter text, Text.split_ne_nil _ _,
      fun _ mem => Text.not_mem_of_mem_split mem⟩

def depth (location : Location) : Nat := location.segments.length

/-- The segments with colons between them. -/
def render (location : Location) : String := Text.join delimiter location.segments

end Location

/-- The name of a kind of documents. -/
@[ext] structure Schema where
  name : String
  nonempty : name ≠ ""
  no_delimiter : delimiter ∉ name.toList

namespace Schema

def ofText (name : String) : Except Misuse Schema :=
  if nonempty : name = "" then .error .emptySchema
  else if bad : delimiter ∈ name.toList then .error (.schemaWithColon name)
  else .ok ⟨name, nonempty, bad⟩

def keyStart (schema : Schema) : String := schema.name ++ ":"

def key (schema : Schema) (location : Location) : String := schema.keyStart ++ location.render

end Schema

end Folio
