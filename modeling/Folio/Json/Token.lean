import Folio.Json.Basic
import Folio.Text.Hex

/-!
# The tokens of JSON text

Blank space, words, numbers and strings, read from the front of a byte sequence.
Each reader returns what it read and the bytes behind it, or the first fault it
meets.  Text is checked to be UTF-8 only inside strings, at the closing quote.
-/

namespace Folio.Json

inductive Fault where
  /-- The text ended inside a value. -/
  | endOfText
  /-- A value is well formed but of a kind that is not allowed there. -/
  | wrongKind
  /-- The text is not JSON, or a number in it is too large. -/
  | malformed
  deriving DecidableEq, Repr

abbrev ascii (c : Char) : UInt8 := c.toUInt8

def isBlank (b : UInt8) : Bool :=
  b == ascii ' ' || b == ascii '\t' || b == ascii '\n' || b == ascii '\r'

/-- The bytes from the first that is not blank. -/
def skipBlank (bytes : Bytes) : Bytes := bytes.dropWhile isBlank

def isDigit (b : UInt8) : Bool := ascii '0' ≤ b && b ≤ ascii '9'

/-- The fault of meeting these bytes where something else has to stand. -/
def unexpected : Bytes → Fault
  | [] => .endOfText
  | _ :: _ => .malformed

/-- Read the rest of a word such as `null`. -/
def readWord : (word : List Char) → Bytes → Except Fault Bytes
  | [], bytes => .ok bytes
  | c :: word, b :: bytes => if b = ascii c then readWord word bytes else .error .malformed
  | _ :: _, [] => .error .endOfText

def digitsValue (digits : Bytes) : Nat :=
  digits.foldl (fun n b => 10 * n + (b.toNat - 48)) 0

/-- Read one or more digits. -/
def readDigits (bytes : Bytes) : Except Fault (Bytes × Bytes) :=
  match bytes.takeWhile isDigit with
  | [] => .error (unexpected bytes)
  | digits => .ok (digits, bytes.dropWhile isDigit)

structure Numeral where
  negative : Bool
  /-- Whether the number has neither a fraction nor an exponent. -/
  isWhole : Bool
  /-- All its digits before the exponent, read as one number. -/
  digits : Nat
  /-- The power of ten that the digits are multiplied by. -/
  scale : Int
  deriving DecidableEq

/-- Read the digits before the point; a leading zero stands alone. -/
def readWhole (bytes : Bytes) : Except Fault (Bytes × Bytes) := do
  let (digits, rest) ← readDigits bytes
  if digits.head? = some (ascii '0') ∧ 1 < digits.length then .error .malformed
  else .ok (digits, rest)

/-- Read a fraction if a point stands in front; `none` if there is none. -/
def readFraction (bytes : Bytes) : Except Fault (Option Bytes × Bytes) :=
  match bytes with
  | b :: rest =>
      if b = ascii '.' then do
        let (digits, rest) ← readDigits rest
        .ok (some digits, rest)
      else .ok (none, bytes)
  | [] => .ok (none, bytes)

def readSign (bytes : Bytes) : Bool × Bytes :=
  match bytes with
  | b :: rest =>
      if b = ascii '-' then (true, rest)
      else if b = ascii '+' then (false, rest)
      else (false, bytes)
  | [] => (false, bytes)

/-- Read an exponent if one follows; `none` if there is none. -/
def readExponent (bytes : Bytes) : Except Fault (Option Int × Bytes) :=
  match bytes with
  | b :: rest =>
      if b = ascii 'e' ∨ b = ascii 'E' then do
        let (negative, rest) := readSign rest
        let (digits, rest) ← readDigits rest
        let size : Int := digitsValue digits
        .ok (some (if negative then -size else size), rest)
      else .ok (none, bytes)
  | [] => .ok (none, bytes)

def readNumeral (bytes : Bytes) : Except Fault (Numeral × Bytes) := do
  let negative := bytes.head? == some (ascii '-')
  let (whole, rest) ← readWhole (if negative then bytes.tail else bytes)
  let (fraction, rest) ← readFraction rest
  let (exponent, rest) ← readExponent rest
  let numeral : Numeral :=
    { negative
      isWhole := fraction.isNone && exponent.isNone
      digits := digitsValue (whole ++ fraction.getD [])
      scale := exponent.getD 0 - (fraction.getD []).length }
  .ok (numeral, rest)

namespace Numeral

/-- The value of a number written without fraction and exponent; `-0` has none. -/
def toInt? (n : Numeral) : Option Int :=
  if n.isWhole && !(n.negative && n.digits == 0) then
    some (if n.negative then -n.digits else n.digits)
  else none

def toBinary64 (n : Numeral) : Binary64 :=
  .signed n.negative (Magnitude.ofDecimal n.digits n.scale)

/-- An integer of sixty-four bits if the number is one, else the nearest finite double. -/
def toJson? (n : Numeral) : Option Json :=
  match n.toInt?.filter Text.isInt64 with
  | some i => some (.integer (Int64.ofInt i))
  | none => if n.toBinary64.isFinite then some (.float n.toBinary64) else none

end Numeral

def hexUnit? (a b c d : UInt8) : Option Nat := do
  some ((← Text.hexByte? a b) * 256 + (← Text.hexByte? c d))

/-- Whether a sixteen-bit unit is the second half of a pair. -/
def isTrailing (unit : Nat) : Bool := 0xDC00 ≤ unit && unit ≤ 0xDFFF

/-- Whether a sixteen-bit unit is the first half of a pair. -/
def isLeading (unit : Nat) : Bool := 0xD800 ≤ unit && unit ≤ 0xDBFF

def shortEscape? (b : UInt8) : Option UInt8 :=
  if b = ascii '"' ∨ b = ascii '\\' ∨ b = ascii '/' then some b
  else if b = ascii 'b' then some 8
  else if b = ascii 'f' then some 12
  else if b = ascii 'n' then some 10
  else if b = ascii 'r' then some 13
  else if b = ascii 't' then some 9
  else none

/-- Put bytes in front of a string that was read. -/
def prepend (bytes : Bytes) (reading : Except Fault (Bytes × Bytes)) :
    Except Fault (Bytes × Bytes) :=
  reading.map fun (tail, rest) => (bytes ++ tail, rest)

def charBytes (code : Nat) : Bytes := String.utf8EncodeChar (Char.ofNat code)

/-- What the next byte of a string belongs to. -/
inductive StringMode where
  | plain
  /-- Right behind a backslash. -/
  | escaped
  /--
  Among the four digits of a unit, of which `digits` have been read.  `leading` is
  the first half of a pair that the unit has to complete.
  -/
  | unit (leading : Option Nat) (digits : Bytes)
  /-- Behind the first half of a pair, where a backslash has to follow. -/
  | half (leading : Nat)
  /-- Behind the first half of a pair and a backslash, where a `u` has to follow. -/
  | halfEscaped (leading : Nat)

/-- The number of the character that a pair of units stands for. -/
def pairCode (leading trailing : Nat) : Nat :=
  0x10000 + (leading - 0xD800) * 0x400 + (trailing - 0xDC00)

def readUnit (leading : Option Nat) (unit : Nat) : Except Fault (Bytes × StringMode) :=
  match leading with
  | some leading =>
      if isTrailing unit then .ok (charBytes (pairCode leading unit), .plain)
      else .error .malformed
  | none =>
      if isTrailing unit then .error .malformed
      else if isLeading unit then .ok ([], .half unit)
      else .ok (charBytes unit, .plain)

/-- Read a byte of a string other than its closing quote. -/
def stringStep (mode : StringMode) (b : UInt8) : Except Fault (Bytes × StringMode) :=
  match mode with
  | .plain =>
      if b = ascii '\\' then .ok ([], .escaped)
      else if b < 0x20 then .error .malformed
      else .ok ([b], .plain)
  | .escaped =>
      if b = ascii 'u' then .ok ([], .unit none [])
      else
        match shortEscape? b with
        | some byte => .ok ([byte], .plain)
        | none => .error .malformed
  | .unit leading [d₁, d₂, d₃] =>
      match hexUnit? d₁ d₂ d₃ b with
      | some unit => readUnit leading unit
      | none => .error .malformed
  | .unit leading digits => .ok ([], .unit leading (digits ++ [b]))
  | .half leading =>
      if b = ascii '\\' then .ok ([], .halfEscaped leading) else .error .malformed
  | .halfEscaped leading =>
      if b = ascii 'u' then .ok ([], .unit (some leading) []) else .error .malformed

def StringMode.endsAt (mode : StringMode) (b : UInt8) : Bool :=
  match mode with
  | .plain => b == ascii '"'
  | _ => false

/-- Read the bytes of a string up to its closing quote, with the escapes resolved. -/
def readStringBytes (mode : StringMode) : Bytes → Except Fault (Bytes × Bytes)
  | [] => .error .endOfText
  | b :: rest =>
      if mode.endsAt b then .ok ([], rest)
      else
        match stringStep mode b with
        | .error fault => .error fault
        | .ok (bytes, mode) => prepend bytes (readStringBytes mode rest)

def readString (bytes : Bytes) : Except Fault (String × Bytes) := do
  let (content, rest) ← readStringBytes .plain bytes
  match Text.ofUtf8? content with
  | some text => .ok (text, rest)
  | none => .error .malformed

end Folio.Json
