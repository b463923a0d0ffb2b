import Folio.Document

/-!
# Documents as a table of texts

In a field table every field has a text of its own.  A string stands as it is
unless that text would read as some other value, and then it is quoted; every
other value is JSON text.  So each text has exactly one reading.
-/

namespace Folio

namespace Value

/-- The text of a value in a field table, or the first obstacle to writing it. -/
def toFieldText (value : Value) : Except Unencodable String :=
  match value.obstacle? 0 with
  | some obstacle => .error obstacle
  | none =>
      match value with
      | string text => .ok (if (parse? text).isNone then text else value.toJson.print)
      | _ => .ok value.toJson.print

/-- The value of a text in a field table; a text that is no JSON value is a string. -/
def ofFieldText (text : String) : Value := (parse? text).getD (string text)

end Value

namespace Document

def fieldTexts : List (String × Value) → Except Unencodable (List (String × String))
  | [] => .ok []
  | (name, value) :: rest => do
      let text ← value.toFieldText
      let texts ← fieldTexts rest
      .ok ((name, text) :: texts)

/-- The field table of a document in the order of the names. -/
def toFieldTable (doc : Document) : Except Unencodable (List (String × String)) :=
  fieldTexts doc.toList

/-- The document of a field table, in which the last text of a field counts. -/
def ofFieldTable (entries : List (String × String)) : Document :=
  ofList (entries.map fun (name, text) => (name, Value.ofFieldText text))

end Document

end Folio
