import Folio.SortedMap
import Folio.Value

/-!
# Documents

A document maps field names to values.  A field with several values holds a
sequence, and readers need not know which: a scalar reads as one value.
-/

namespace Folio

/-- A map from field names to values. -/
@[ext] structure Document where
  fields : SortedMap Value

namespace Document

def empty : Document := ⟨.empty⟩

instance : Inhabited Document := ⟨empty⟩

/-- The document of a list of fields, in which the last value of a field counts. -/
def ofList (fields : List (String × Value)) : Document := ⟨.ofList fields⟩

/-- The fields in the order of their names. -/
def toList (doc : Document) : List (String × Value) := doc.fields.entries

def set (doc : Document) (field : String) (value : Value) : Document :=
  ⟨doc.fields.insert field value⟩

def values (doc : Document) (field : String) : List Value :=
  match doc.fields.get? field with
  | none => []
  | some value => value.items

/-- Append values to a field, which becomes a sequence. -/
def addAll (doc : Document) (field : String) (extra : List Value) : Document :=
  doc.set field (.sequence (doc.values field ++ extra))

def add (doc : Document) (field : String) (value : Value) : Document :=
  doc.addAll field [value]

def remove (doc : Document) (field : String) : Document := ⟨doc.fields.erase field⟩

def get? (doc : Document) (field : String) : Option Value := doc.fields.get? field

def first? (doc : Document) (field : String) : Option Value := (doc.values field).head?

def firstOr (doc : Document) (field : String) (default : Value) : Value :=
  (doc.first? field).getD default

def firstText (doc : Document) (field : String) (default : String) : String :=
  ((doc.first? field).map Value.display).getD default

/-- Whether a field exists, be it with an empty sequence. -/
def contains (doc : Document) (field : String) : Bool := doc.fields.contains field

def names (doc : Document) : List String := doc.fields.keys

def size (doc : Document) : Nat := doc.fields.size

def isEmpty (doc : Document) : Bool := doc.fields.isEmpty

/-- Equality that compares doubles as numbers. -/
def numericEq (a b : Document) : Bool :=
  a.names == b.names && Value.itemsNumericEq a.fields.values b.fields.values

def obstacle? (doc : Document) : Option Unencodable :=
  Value.itemsObstacle? 0 doc.fields.values

def toJson (doc : Document) : Json :=
  .object (doc.toList.map fun (name, value) => (name, value.toJson))

/-- The JSON text of a document; doubles that are not numbers stand as `null`. -/
def display (doc : Document) : String := doc.toJson.print

end Document

end Folio
