import Folio.Binary64.Shortest

/-!
# Text layouts of a double

A layout fixes everything about the text of a double except its digits: which
numbers are written without an exponent, whether a whole number keeps a
fraction, how ties between digits go, and the words for what is not a number.
-/

namespace Folio

/-- The choices that turn the digits of a double into text. -/
structure FloatLayout where
  /-- The exponents of the first digit that are written in full; `none` for all. -/
  plain : Option (Int × Int)
  /-- Whether a whole number ends in `.0`. -/
  wholeFraction : Bool
  tie : Tie
  nan : String
  infinity : String
  negativeInfinity : String

namespace FloatLayout

/-- Encoded doubles always have a fraction or an exponent, so they never read as integers. -/
def encoded : FloatLayout where
  plain := some (-5, 15)
  wholeFraction := true
  tie := .even
  nan := "null"
  infinity := "null"
  negativeInfinity := "null"

/-- Displayed doubles are written in full, and whole ones like integers. -/
def displayed : FloatLayout where
  plain := none
  wholeFraction := false
  tie := .upward
  nan := "NaN"
  infinity := "inf"
  negativeInfinity := "-inf"

/-- Whether a number whose first digit has this exponent is written in full. -/
def isPlain (layout : FloatLayout) (leading : Int) : Bool :=
  match layout.plain with
  | none => true
  | some (low, high) => low ≤ leading && leading ≤ high

/-- Digits written in full around the decimal point. -/
def positional (layout : FloatLayout) (digits : List Char) (leading : Int) : List Char :=
  if leading < 0 then
    '0' :: '.' :: (List.replicate (-leading - 1).toNat '0' ++ digits)
  else
    let whole := leading.toNat + 1
    if digits.length ≤ whole then
      digits ++ List.replicate (whole - digits.length) '0' ++
        (if layout.wholeFraction then ['.', '0'] else [])
    else digits.take whole ++ '.' :: digits.drop whole

/-- Digits with the point behind the first one and a signed power of ten. -/
def scientific (digits : List Char) (leading : Int) : List Char :=
  let mantissa :=
    match digits with
    | first :: next :: rest => first :: '.' :: next :: rest
    | short => short
  mantissa ++ 'e' :: (if leading < 0 then '-' else '+') :: Nat.toDigits 10 leading.natAbs

/-- The digits of a number without the zeros at its end. -/
def significantDigits (n : Nat) : List Char :=
  ((Nat.toDigits 10 n).reverse.dropWhile (· == '0')).reverse

/-- The text of a decimal number that is not negative. -/
def decimalChars (layout : FloatLayout) (d : Decimal) : List Char :=
  if d.digits = 0 then layout.positional ['0'] 0
  else
    let leading := d.scale + (Magnitude.digitCount d.digits : Int) - 1
    let digits := significantDigits d.digits
    if layout.isPlain leading then layout.positional digits leading
    else scientific digits leading

def chars (layout : FloatLayout) : Binary64 → List Char
  | .nan => layout.nan.toList
  | .signed negative m =>
      if m.isFinite then
        (if negative then ['-'] else []) ++ layout.decimalChars (m.shortest layout.tie)
      else if negative then layout.negativeInfinity.toList
      else layout.infinity.toList

end FloatLayout

end Folio
