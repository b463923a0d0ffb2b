/-!
# Whole numbers in decimal

A whole number is written without leading zeros, and a minus sign stands in front
of a negative one.  The reader is more generous: it takes leading zeros and a plus
sign as well.
-/

namespace Folio.Text

/-- The decimal digits of a whole number, behind a minus sign if it is negative. -/
def integerChars (n : Int) : List Char :=
  if n < 0 then '-' :: Nat.toDigits 10 n.natAbs else Nat.toDigits 10 n.natAbs

def integer (n : Int) : String := String.ofList (integerChars n)

/-- The number that one or more decimal digits denote. -/
def natural? (digits : List Char) : Option Nat :=
  if !digits.isEmpty && digits.all Char.isDigit then
    some (digits.foldl (fun n c => 10 * n + (c.toNat - 48)) 0)
  else none

/-- The number that decimal digits denote, perhaps behind a plus sign. -/
def unsigned? (text : List Char) : Option Nat :=
  match text with
  | '+' :: digits => natural? digits
  | digits => natural? digits

/-- The number that decimal digits denote, perhaps behind a sign. -/
def integer? (text : List Char) : Option Int :=
  match text with
  | '-' :: digits => (natural? digits).map fun n => -n
  | text => (unsigned? text).map Int.ofNat

def isInt64 (n : Int) : Bool := -0x8000000000000000 ≤ n && n < 0x8000000000000000

end Folio.Text
