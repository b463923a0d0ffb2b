import Folio.Text.Invisible

/-!
# Quoted text in messages

A message that mentions a text puts it between double quotes.  Quotes,
backslashes and the common control characters get a short escape, and every
other invisible character is spelled out by its number, so that two different
texts never look the same.
-/

namespace Folio.Text

def quotedChar (c : Char) : List Char :=
  match c with
  | '\x00' => ['\\', '0']
  | '\t' => ['\\', 't']
  | '\r' => ['\\', 'r']
  | '\n' => ['\\', 'n']
  | '"' => ['\\', '"']
  | '\\' => ['\\', '\\']
  | c =>
      if isInvisible c then '\\' :: 'u' :: '{' :: (Nat.toDigits 16 c.toNat ++ ['}'])
      else [c]

/-- A text between double quotes, with its special characters escaped. -/
def quoted (text : String) : String :=
  String.ofList ('"' :: (text.toList.flatMap quotedChar ++ ['"']))

end Folio.Text
