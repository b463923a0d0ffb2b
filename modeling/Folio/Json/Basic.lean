import Folio.Binary64.Format
import Folio.Text.Integer
import Folio.Text.Utf8

/-!
# JSON values and their text

Numbers are split into integers of sixty-four bits and doubles, because the two
stay apart in stored documents: the text of a double always has a fraction or an
exponent, and the text of an integer never has one.
-/

namespace Folio

inductive Json where
  | null
  | boolean (value : Bool)
  | integer (value : Int64)
  | float (value : Binary64)
  | string (value : String)
  | array (items : List Json)
  | object (members : List (String × Json))
  deriving Inhabited

namespace Json

/-- A hexadecimal digit in lower case. -/
def hexDigit (n : Nat) : Char := Nat.digitChar (n % 16)

def escapedChar (c : Char) : List Char :=
  match c with
  | '"' => ['\\', '"']
  | '\\' => ['\\', '\\']
  | '\x08' => ['\\', 'b']
  | '\x0c' => ['\\', 'f']
  | '\n' => ['\\', 'n']
  | '\r' => ['\\', 'r']
  | '\t' => ['\\', 't']
  | c =>
      if c.toNat < 0x20 then ['\\', 'u', '0', '0', hexDigit (c.toNat / 16), hexDigit c.toNat]
      else [c]

def stringChars (text : String) : List Char :=
  '"' :: (text.toList.flatMap escapedChar ++ ['"'])

mutual

def chars : Json → List Char
  | null => ['n', 'u', 'l', 'l']
  | boolean true => ['t', 'r', 'u', 'e']
  | boolean false => ['f', 'a', 'l', 's', 'e']
  | integer value => Text.integerChars value.toInt
  | float value => FloatLayout.encoded.chars value
  | string value => stringChars value
  | array items => '[' :: (itemChars items ++ [']'])
  | object members => '{' :: (memberChars members ++ ['}'])

/-- The texts of the items of an array, with commas between them. -/
def itemChars : List Json → List Char
  | [] => []
  | item :: [] => chars item
  | item :: rest => chars item ++ ',' :: itemChars rest

/-- The texts of the members of an object, with commas between them. -/
def memberChars : List (String × Json) → List Char
  | [] => []
  | (key, value) :: [] => stringChars key ++ ':' :: chars value
  | (key, value) :: rest => stringChars key ++ ':' :: (chars value ++ ',' :: memberChars rest)

end

def print (value : Json) : String := String.ofList value.chars

end Json

end Folio
