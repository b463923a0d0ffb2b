import Folio.Json.Reader

/-!
# Document values

A value is a scalar or a sequence of values.  Its JSON text keeps the kind: an
integer has neither fraction nor exponent, and a double always has one of them.
Doubles that are not numbers, and sequences nested beyond a limit, have no
encoded form.
-/

namespace Folio

inductive Value where
  | boolean (value : Bool)
  | integer (value : Int64)
  | float (value : Binary64)
  | string (value : String)
  | sequence (items : List Value)
  deriving Inhabited

inductive Unencodable where
  /-- A double is infinite or not a number. -/
  | notFinite (value : Binary64)
  /-- Sequences are nested too deep. -/
  | tooDeep
  deriving DecidableEq

namespace Value

def maxNesting : Nat := 64

mutual

/-- The first obstacle to encoding a value that stands inside `depth` sequences. -/
def obstacle? (depth : Nat) : Value → Option Unencodable
  | float value => if value.isFinite then none else some (.notFinite value)
  | sequence items =>
      if maxNesting ≤ depth then some .tooDeep else itemsObstacle? (depth + 1) items
  | boolean _ | integer _ | string _ => none

def itemsObstacle? (depth : Nat) : List Value → Option Unencodable
  | [] => none
  | item :: rest => (obstacle? depth item).or (itemsObstacle? depth rest)

end

mutual

def toJson : Value → Json
  | boolean value => .boolean value
  | integer value => .integer value
  | float value => .float value
  | string value => .string value
  | sequence items => .array (itemsToJson items)

def itemsToJson : List Value → List Json
  | [] => []
  | item :: rest => toJson item :: itemsToJson rest

end

mutual

/-- The value of a JSON form; `null` and objects are no values. -/
def ofJson? : Json → Option Value
  | .null => none
  | .boolean value => some (boolean value)
  | .integer value => some (integer value)
  | .float value => some (float value)
  | .string value => some (string value)
  | .array items => (itemsOfJson? items).map sequence
  | .object _ => none

def itemsOfJson? : List Json → Option (List Value)
  | [] => some []
  | item :: rest =>
      match ofJson? item, itemsOfJson? rest with
      | some value, some values => some (value :: values)
      | _, _ => none

end

mutual

/-- Equality that compares doubles as numbers. -/
def numericEq : Value → Value → Bool
  | boolean a, boolean b => a == b
  | integer a, integer b => a == b
  | float a, float b => a.numericEq b
  | string a, string b => a == b
  | sequence a, sequence b => itemsNumericEq a b
  | _, _ => false

def itemsNumericEq : List Value → List Value → Bool
  | [], [] => true
  | a :: as, b :: bs => numericEq a b && itemsNumericEq as bs
  | _, _ => false

end

/-- The text of a value for a reader: scalars stand as they are, sequences as JSON. -/
def display : Value → String
  | boolean true => "true"
  | boolean false => "false"
  | integer value => Text.integer value.toInt
  | float value => String.ofList (FloatLayout.displayed.chars value)
  | string value => value
  | sequence items => (sequence items).toJson.print

/-- The items of a sequence; a scalar counts as its only item. -/
def items : Value → List Value
  | sequence items => items
  | scalar => [scalar]

def read (depth : Nat) (bytes : Bytes) : Except Json.Fault (Value × Bytes) := do
  let (json, rest) ← Json.readValue depth bytes
  match ofJson? json with
  | some value => .ok (value, rest)
  | none => .error .wrongKind

def parse? (text : String) : Option Value :=
  (Json.finish (read Json.maxOpen (Text.utf8 text))).toOption

end Value

def Unencodable.message : Unencodable → String
  | .notFinite value => "cannot encode non-finite float " ++ (Value.float value).display
  | .tooDeep => s!"sequences nested deeper than {Value.maxNesting} levels"

end Folio
