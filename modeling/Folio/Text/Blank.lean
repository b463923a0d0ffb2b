/-!
# Blank space around a text

Blank is the Unicode property `White_Space`, which has twenty-five members.
-/

namespace Folio.Text

def isBlank (c : Char) : Bool :=
  let n := c.toNat
  (9 ≤ n && n ≤ 13) || n == 0x20 || n == 0x85 || n == 0xA0 || n == 0x1680 ||
    (0x2000 ≤ n && n ≤ 0x200A) || n == 0x2028 || n == 0x2029 || n == 0x202F ||
    n == 0x205F || n == 0x3000

def stripChars (kind : Char → Bool) (text : List Char) : List Char :=
  ((text.dropWhile kind).reverse.dropWhile kind).reverse

def trimChars (text : List Char) : List Char := stripChars isBlank text

def trim (text : String) : String := String.ofList (trimChars text.toList)

end Folio.Text
