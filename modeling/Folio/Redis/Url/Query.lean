import Folio.Text.Hex
import Folio.Text.Repaired
import Folio.Text.Split

/-!
# Percent signs and queries

In a URL a percent sign and two hexadecimal digits stand for one byte.  A query is a
list of names with values; a plus sign in it is a space, and the last value of a name
counts.
-/

namespace Folio.Redis.Url

def percentDecoded : Bytes → Bytes
  | [] => []
  | [b] => [b]
  | [b, c] => [b, c]
  | b :: high :: low :: rest =>
      if b = 0x25 then
        match Text.hexByte? high low with
        | some n => n.toUInt8 :: percentDecoded rest
        | none => b :: percentDecoded (high :: low :: rest)
      else b :: percentDecoded (high :: low :: rest)

def queryText (text : List Char) : String :=
  let spaced := text.map fun c => if c = '+' then ' ' else c
  Text.repaired (percentDecoded (Text.utf8 (String.ofList spaced)))

/-- A name and its value, which is empty if there is no equals sign. -/
def queryPair (entry : List Char) : String × String :=
  (queryText (entry.takeWhile (· ≠ '=')), queryText ((entry.dropWhile (· ≠ '=')).drop 1))

def queryPairs (query : List Char) : List (String × String) :=
  ((Text.splitChars '&' query).filter fun entry => !entry.isEmpty).map queryPair

def queryValue? (query : List Char) (name : String) : Option String :=
  (queryPairs query).reverse.lookup name

end Folio.Redis.Url
