/-!
# Double-precision numbers

A double is "not a number" or a sign together with a magnitude.  A magnitude is
the sixty-three low bits of its IEEE 754 form, whose order is the order of the
numbers they stand for: zero comes first and infinity last.  Everything here is
exact arithmetic on natural numbers.

The main operation rounds a ratio, or a decimal number, to the nearest
magnitude, with ties to the even one.
-/

namespace Folio

def infinityBits : Nat := 0x7FF0000000000000

/-- The bit in front of the fifty-two bits of a fraction. -/
def leadingBit : Nat := 0x10000000000000

def signBit : Nat := 0x8000000000000000

/-- The size of a double, as its bits without the sign. -/
@[ext] structure Magnitude where
  bits : Nat
  le_infinity : bits ≤ infinityBits
  deriving DecidableEq

namespace Magnitude

/-- The magnitude of both zeros. -/
def zero : Magnitude := ⟨0, Nat.zero_le _⟩

/-- The magnitude above all finite ones. -/
def infinity : Magnitude := ⟨infinityBits, Nat.le_refl _⟩

/-- The magnitude with the given bits; bits beyond infinity mean infinity. -/
def ofBits (bits : Nat) : Magnitude := ⟨min bits infinityBits, Nat.min_le_right _ _⟩

def isFinite (m : Magnitude) : Bool := m.bits < infinityBits

def significand (m : Magnitude) : Nat :=
  if m.bits < leadingBit then m.bits else m.bits % leadingBit + leadingBit

/-- The power of two that the significand of a finite magnitude is multiplied by. -/
def exponent (m : Magnitude) : Int :=
  if m.bits < leadingBit then -1074 else (m.bits / leadingBit : Nat) - 1075

/-- A ratio rounded to a whole number, ties to the even neighbour. -/
def roundRatio (num den : Nat) : Nat :=
  let floor := num / den
  let twice := 2 * (num % den)
  if twice < den then floor
  else if den < twice then floor + 1
  else floor + floor % 2

/-- Numerator and denominator of `num / den · base ^ power`. -/
def scaleRatio (num den base : Nat) (power : Int) : Nat × Nat :=
  (num * base.pow power.toNat, den * base.pow (-power).toNat)

/-- The greatest power of two that is at most the ratio of two positive numbers. -/
def floorLog2 (num den : Nat) : Int :=
  let guess : Int := (num.log2 : Int) - den.log2
  let (n, d) := scaleRatio num den 2 (-guess)
  if d ≤ n then guess else guess - 1

/-- The magnitude nearest to a ratio, ties to the one with even bits. -/
def ofRatio (num den : Nat) : Magnitude :=
  if num = 0 then zero
  else
    let power := max (floorLog2 num den - 52) (-1074)
    let (n, d) := scaleRatio num den 2 (-power)
    ofBits ((power + 1074).toNat * leadingBit + roundRatio n d)

/-- How many decimal digits a number has; zero has none. -/
def digitCount (n : Nat) : Nat := if n = 0 then 0 else (Nat.toDigits 10 n).length

/--
The magnitude nearest to `digits · 10 ^ scale`.  Beyond `10 ^ 310` every number
rounds to infinity and below `10 ^ -330` to zero, so that a huge scale costs
nothing.
-/
def ofDecimal (digits : Nat) (scale : Int) : Magnitude :=
  if digits = 0 then zero
  else
    let size : Int := digitCount digits + scale
    if size > 311 then infinity
    else if size < -330 then zero
    else
      let (num, den) := scaleRatio digits 1 10 scale
      ofRatio num den

end Magnitude

inductive Binary64 where
  | nan
  | signed (negative : Bool) (magnitude : Magnitude)
  deriving DecidableEq

namespace Binary64

/-- The double with the given sixty-four bits; every not-a-number is the same. -/
def ofBits (bits : Nat) : Binary64 :=
  let low := bits % signBit
  if infinityBits < low then nan else signed (bits / signBit % 2 == 1) (.ofBits low)

/-- The sixty-four bits of a double; not-a-number has only its quiet bit. -/
def toBits : Binary64 → Nat
  | nan => 0x7FF8000000000000
  | signed negative m => (if negative then signBit else 0) + m.bits

def isFinite : Binary64 → Bool
  | nan => false
  | signed _ m => m.isFinite

/-- Equality of numbers: the two zeros are equal, and not-a-number equals nothing. -/
def numericEq : Binary64 → Binary64 → Bool
  | signed s m, signed t n => m == n && (s == t || m == Magnitude.zero)
  | _, _ => false

end Binary64

end Folio
