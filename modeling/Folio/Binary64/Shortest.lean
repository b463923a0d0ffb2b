import Folio.Binary64.Basic

/-!
# The shortest decimal of a double

The text of a finite double uses the fewest decimal digits that read back as the
same double.  Of two such numbers with equally many digits the nearer one is
taken.  A candidate is tested by reading it, so the result always reads back.
-/

namespace Folio

/-- A decimal number `digits · 10 ^ scale`. -/
structure Decimal where
  digits : Nat
  scale : Int
  deriving DecidableEq

/-- Which of two equally near shortest decimals is taken. -/
inductive Tie where
  | even
  | upward
  deriving DecidableEq

namespace Magnitude

def exactDecimal (m : Magnitude) : Decimal :=
  if 0 ≤ m.exponent then ⟨m.significand * Nat.pow 2 m.exponent.toNat, 0⟩
  else ⟨m.significand * Nat.pow 5 (-m.exponent).toNat, m.exponent⟩

def ratio (m : Magnitude) : Nat × Nat := scaleRatio m.significand 1 2 m.exponent

/-- The exponent of the first decimal digit of a positive ratio. -/
def floorLog10 (num den : Nat) : Int :=
  let guess : Int := (digitCount num : Int) - digitCount den
  let (n, d) := scaleRatio num den 10 (-guess)
  if d ≤ n then guess else guess - 1

/--
The neighbour of a magnitude on the grid of multiples of `10 ^ scale` that reads
back as the magnitude, if there is one; the nearer one if both do.
-/
def onGrid? (m : Magnitude) (tie : Tie) (scale : Int) : Option Decimal :=
  let (num, den) := m.ratio
  let (n, d) := scaleRatio num den 10 (-scale)
  let below := n / d
  let above := below + 1
  let twice := 2 * (n % d)
  let preferAbove :=
    if twice = d then
      match tie with
      | .even => below % 2 == 1
      | .upward => true
    else decide (d < twice)
  let (first, second) := if preferAbove then (above, below) else (below, above)
  if ofDecimal first scale = m then some ⟨first, scale⟩
  else if ofDecimal second scale = m then some ⟨second, scale⟩
  else none

/--
The decimal on the coarsest grid that has one reading back as the magnitude, where
`coarser` grids are left to try and the first significant digit stands at the
exponent `leading`.  The finest grid always has one.
-/
def shortestFrom (m : Magnitude) (tie : Tie) (leading : Int) : (coarser : Nat) → Decimal
  | 0 => m.exactDecimal
  | coarser + 1 =>
      match m.onGrid? tie (leading - 16 + coarser) with
      | some decimal => decimal
      | none => shortestFrom m tie leading coarser

def shortest (m : Magnitude) (tie : Tie) : Decimal :=
  if m.significand = 0 then ⟨0, 0⟩
  else
    let (num, den) := m.ratio
    shortestFrom m tie (floorLog10 num den) 17

end Magnitude

end Folio
