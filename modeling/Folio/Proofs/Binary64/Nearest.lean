import Mathlib.Tactic.NormNum
import Folio.Proofs.Binary64.Rounding

/-!
# The nearest magnitude

The numbers that magnitudes stand for are in the order of their bits.  A ratio is
rounded on the grid of the last place that it can have: no magnitude is nearer to it
than the one it is rounded to, and of two that are equally near it is the even one.
Only one magnitude is nearest to a number in this sense, so a ratio and a decimal are
rounded by their values alone.
-/

namespace Folio.Magnitude

/-! ## The order of magnitudes -/

/-- The number that bits stand for, if exponents had no upper limit. -/
def gridValue (bits : Nat) : ℚ :=
  if bits < leadingBit then bits * (2 : ℚ) ^ (-1074 : Int)
  else (bits % leadingBit + leadingBit : Nat) * (2 : ℚ) ^ ((bits / leadingBit : Nat) - 1075 : Int)

theorem value_eq_gridValue (m : Magnitude) : m.value = gridValue m.bits := by
  rw [value, significand, exponent, gridValue]
  split <;> rfl

/-- Bits are the places of a grid and a whole number on it. -/
theorem gridValue_eq {place count : Nat} (low : place = 0 ∨ leadingBit ≤ count)
    (high : count ≤ 2 * leadingBit) :
    gridValue (place * leadingBit + count) = count * (2 : ℚ) ^ ((place : Int) - 1074) := by
  have positive : 0 < leadingBit := by decide
  rw [gridValue]
  obtain below | ⟨inside, within⟩ | rfl : count < leadingBit ∨
      (leadingBit ≤ count ∧ count < 2 * leadingBit) ∨ count = 2 * leadingBit := by omega
  · obtain rfl : place = 0 := low.resolve_right (Nat.not_le.2 below)
    rw [Nat.zero_mul, Nat.zero_add, if_pos below]
    rfl
  · obtain ⟨rest, rfl⟩ := Nat.exists_eq_add_of_le inside
    have small : rest < leadingBit := by omega
    have shape : place * leadingBit + (leadingBit + rest) = rest + leadingBit * (place + 1) := by
      ring
    rw [shape, if_neg (by rw [Nat.mul_add]; omega), Nat.add_mul_mod_self_left,
      Nat.mod_eq_of_lt small, Nat.add_mul_div_left _ _ positive, Nat.div_eq_of_lt small,
      Nat.zero_add, Nat.add_comm rest]
    congr 2
    omega
  · have shape : place * leadingBit + 2 * leadingBit = leadingBit * (place + 2) := by ring
    rw [shape, if_neg (by rw [Nat.mul_add]; omega), Nat.mul_mod_right, Nat.mul_div_right _ positive]
    have next : ((place + 2 : Nat) : Int) - 1075 = (place : Int) - 1074 + 1 := by omega
    rw [next, zpow_add_one₀ two_ne_zero]
    push_cast
    ring

/-- All bits are on the grid of some place. -/
theorem exists_place (bits : Nat) : ∃ place count, bits = place * leadingBit + count ∧
    (place = 0 ∨ leadingBit ≤ count) ∧ count < 2 * leadingBit := by
  by_cases small : bits < leadingBit
  · exact ⟨0, bits, by rw [Nat.zero_mul, Nat.zero_add], .inl rfl, by omega⟩
  · refine ⟨bits / leadingBit - 1, bits % leadingBit + leadingBit, ?_, .inr (by omega), ?_⟩
    · rw [leadingBit] at small ⊢
      omega
    · rw [leadingBit]
      omega

theorem gridValue_strictMono : StrictMono gridValue := by
  refine strictMono_nat_of_lt_succ fun bits => ?_
  obtain ⟨place, count, rfl, low, high⟩ := exists_place bits
  rw [Nat.add_assoc, gridValue_eq low high.le,
    gridValue_eq (low.imp_right fun le => by omega) (by omega)]
  refine mul_lt_mul_of_pos_right ?_ (zpow_pos two_pos _)
  exact_mod_cast Nat.lt_succ_self count

theorem value_lt_value_iff {m n : Magnitude} : m.value < n.value ↔ m.bits < n.bits := by
  rw [value_eq_gridValue, value_eq_gridValue, gridValue_strictMono.lt_iff_lt]

theorem value_injective {m n : Magnitude} (same : m.value = n.value) : m = n := by
  rw [value_eq_gridValue, value_eq_gridValue] at same
  exact Magnitude.ext (gridValue_strictMono.injective same)

theorem value_zero : zero.value = 0 := by
  have none : zero.significand = 0 := rfl
  rw [value, none, Nat.cast_zero, zero_mul]

/-! ## Nearest magnitudes -/

/--
Whether a magnitude is the one that a number is rounded to: none is nearer, and if another one is
as near, its bits are even.  Infinity counts as the power of two above all finite magnitudes.
-/
structure IsNearest (x : ℚ) (m : Magnitude) : Prop where
  nearest : ∀ other : Magnitude, |x - m.value| ≤ |x - other.value|
  even : ∀ other : Magnitude, |x - other.value| = |x - m.value| → other = m ∨ m.bits % 2 = 0

namespace IsNearest

variable {x : ℚ} {m n : Magnitude}

/-- What lies strictly between two equally near numbers is nearer. -/
theorem abs_sub_lt_of_between {a b c : ℚ} (same : |x - a| = |x - b|) (above : a < c)
    (below : c < b) : |x - c| < |x - a| := by
  have opposite : x - a = b - x := by
    obtain equal | equal := abs_eq_abs.1 same
    · linarith
    · linarith
  have positive : 0 < x - a := by linarith
  rw [abs_of_pos positive, abs_lt]
  constructor <;> linarith

theorem bits_not_lt (nearest : IsNearest x m) (other : IsNearest x n) : ¬m.bits < n.bits := by
  intro less
  have same : |x - m.value| = |x - n.value| :=
    le_antisymm (nearest.nearest n) (other.nearest m)
  have evenLeft : m.bits % 2 = 0 := (nearest.even n same.symm).resolve_left (by rintro rfl; omega)
  have evenRight : n.bits % 2 = 0 := (other.even m same).resolve_left (by rintro rfl; omega)
  -- Both are even, so there is a magnitude between them.
  let between : Magnitude := ⟨m.bits + 1, by have := n.le_infinity; omega⟩
  have above : m.value < between.value := value_lt_value_iff.2 (Nat.lt_succ_self _)
  have below : between.value < n.value :=
    value_lt_value_iff.2 (show m.bits + 1 < n.bits by omega)
  exact absurd (nearest.nearest between) (not_le.2 (abs_sub_lt_of_between same above below))

/-- A number is rounded to one magnitude only. -/
theorem unique (nearest : IsNearest x m) (other : IsNearest x n) : m = n :=
  Magnitude.ext (Nat.le_antisymm (Nat.not_lt.1 (other.bits_not_lt nearest))
    (Nat.not_lt.1 (nearest.bits_not_lt other)))

/-- A magnitude that is nearer than all others is nearest. -/
theorem of_lt (nearer : ∀ other, other ≠ m → |x - m.value| < |x - other.value|) :
    IsNearest x m where
  nearest other := by
    by_cases same : other = m
    · rw [same]
    · exact (nearer other same).le
  even other equal := by
    by_cases same : other = m
    · exact .inl same
    · exact absurd equal (nearer other same).ne'

theorem self (m : Magnitude) : IsNearest m.value m := by
  refine of_lt fun other ne => ?_
  rw [sub_self, abs_zero, abs_pos, sub_ne_zero]
  exact fun same => ne (value_injective same).symm

end IsNearest

/-! ## Rounding on a grid -/

/-- No whole number is nearer to a ratio than the rounded one, and in a tie that is even. -/
theorem natAbs_sub_roundRatio (num : Nat) {den : Nat} (hden : 0 < den) (other : Nat) :
    ((num : Int) - (roundRatio num den * den : Nat)).natAbs ≤
        ((num : Int) - (other * den : Nat)).natAbs ∧
      (((num : Int) - (other * den : Nat)).natAbs =
        ((num : Int) - (roundRatio num den * den : Nat)).natAbs →
          other = roundRatio num den ∨ roundRatio num den % 2 = 0) := by
  have parts := Nat.div_add_mod' num den
  have small := Nat.mod_lt num hden
  -- Everything is measured from the whole number below the ratio.
  have floor : ∀ n : Nat, (n < num / den ∧ n * den + den ≤ num / den * den) ∨ n = num / den ∨
      n = num / den + 1 ∨ (num / den + 1 < n ∧ num / den * den + 2 * den ≤ n * den) := by
    intro n
    obtain below | same | next | above : n + 1 ≤ num / den ∨ n = num / den ∨
        n = num / den + 1 ∨ num / den + 2 ≤ n := by omega
    · have := Nat.mul_le_mul_right den below
      rw [Nat.add_mul] at this
      exact .inl ⟨below, by omega⟩
    · exact .inr (.inl same)
    · exact .inr (.inr (.inl next))
    · have := Nat.mul_le_mul_right den above
      rw [Nat.add_mul] at this
      exact .inr (.inr (.inr ⟨by omega, this⟩))
  have successor : (num / den + 1) * den = num / den * den + den := Nat.succ_mul _ _
  have place := floor other
  rw [roundRatio]
  split
  · rcases place with ⟨less, bound⟩ | rfl | rfl | ⟨more, bound⟩ <;> omega
  · split
    · rcases place with ⟨less, bound⟩ | rfl | rfl | ⟨more, bound⟩ <;> omega
    · obtain even | odd := Nat.mod_two_eq_zero_or_one (num / den)
      · rw [even, Nat.add_zero]
        rcases place with ⟨less, bound⟩ | rfl | rfl | ⟨more, bound⟩ <;> omega
      · rw [odd]
        rcases place with ⟨less, bound⟩ | rfl | rfl | ⟨more, bound⟩ <;> omega

theorem abs_sub_eq (num : Nat) {den : Nat} (hden : 0 < den) (n : Nat) :
    |ratioValue num den - n| = (((num : Int) - (n * den : Nat)).natAbs : ℚ) / den := by
  have positive : (0 : ℚ) < den := by exact_mod_cast hden
  have difference : ratioValue num den - n = (((num : Int) - (n * den : Nat) : Int) : ℚ) / den := by
    rw [ratioValue]
    push_cast
    field_simp
  rw [difference, abs_div, abs_of_pos positive, Nat.cast_natAbs, Int.cast_abs]

/-- No whole number is nearer to a ratio than the rounded one, and in a tie that is even. -/
theorem roundRatio_nearest (num : Nat) {den : Nat} (hden : 0 < den) (other : Nat) :
    |ratioValue num den - roundRatio num den| ≤ |ratioValue num den - other| ∧
      (|ratioValue num den - other| = |ratioValue num den - roundRatio num den| →
        other = roundRatio num den ∨ roundRatio num den % 2 = 0) := by
  have positive : (0 : ℚ) < den := by exact_mod_cast hden
  obtain ⟨nearest, even⟩ := natAbs_sub_roundRatio num hden other
  rw [abs_sub_eq num hden, abs_sub_eq num hden, div_le_div_iff_of_pos_right positive,
    div_left_inj' positive.ne']
  exact ⟨by exact_mod_cast nearest, fun same => even (by exact_mod_cast same)⟩

theorem roundRatio_le {num den bound : Nat} (hden : 0 < den) (below : ratioValue num den ≤ bound) :
    roundRatio num den ≤ bound := by
  by_contra above
  have far : (bound : ℚ) + 1 ≤ roundRatio num den := by exact_mod_cast Nat.not_le.1 above
  have nearest := (roundRatio_nearest num hden bound).1
  rw [abs_of_nonpos (by linarith), abs_of_nonpos (by linarith)] at nearest
  linarith

theorem le_roundRatio {num den bound : Nat} (hden : 0 < den) (above : bound ≤ ratioValue num den) :
    bound ≤ roundRatio num den := by
  by_contra below
  have far : (roundRatio num den : ℚ) + 1 ≤ bound := by exact_mod_cast Nat.not_le.1 below
  have nearest := (roundRatio_nearest num hden bound).1
  rw [abs_of_nonneg (by linarith), abs_of_nonneg (by linarith)] at nearest
  linarith

/-- Whether bits are nearest to a number among all bits, if exponents had no upper limit. -/
def IsNearestBits (x : ℚ) (bits : Nat) : Prop :=
  ∀ other : Nat, |x - gridValue bits| ≤ |x - gridValue other| ∧
    (|x - gridValue other| = |x - gridValue bits| → other = bits ∨ bits % 2 = 0)

/--
What is nearest on the grid of a place is nearest at all: above the place all bits are on its grid,
and those below it lie in front of the first number on the grid that is not on a finer one.
-/
theorem isNearestBits_of_grid {x : ℚ} {place count : Nat}
    (low : place = 0 ∨ leadingBit ≤ count ∧ leadingBit * (2 : ℚ) ^ ((place : Int) - 1074) ≤ x)
    (high : count ≤ 2 * leadingBit)
    (rounded : ∀ other : Nat,
      |x - count * (2 : ℚ) ^ ((place : Int) - 1074)| ≤
          |x - other * (2 : ℚ) ^ ((place : Int) - 1074)| ∧
        (|x - other * (2 : ℚ) ^ ((place : Int) - 1074)| =
          |x - count * (2 : ℚ) ^ ((place : Int) - 1074)| → other = count ∨ count % 2 = 0)) :
    IsNearestBits x (place * leadingBit + count) := by
  intro bits
  have here := gridValue_eq (low.imp_right And.left) high
  obtain ⟨coarser, number, rfl, low', high'⟩ := exists_place bits
  by_cases above : place ≤ coarser
  · obtain ⟨more, rfl⟩ := Nat.exists_eq_add_of_le above
    have onGrid : gridValue ((place + more) * leadingBit + number) =
        (number * 2 ^ more : Nat) * (2 : ℚ) ^ ((place : Int) - 1074) := by
      have power : ((place + more : Nat) : Int) - 1074 = (more : Int) + (place - 1074) := by
        push_cast
        ring
      rw [gridValue_eq low' high'.le, power, zpow_add₀ two_ne_zero, zpow_natCast]
      push_cast
      ring
    obtain ⟨nearest, even⟩ := rounded (number * 2 ^ more)
    rw [← onGrid, ← here] at nearest even
    refine ⟨nearest, fun equal => ?_⟩
    obtain same | same := even equal
    · refine .inl (gridValue_strictMono.injective ?_)
      rw [onGrid, here, same]
    · right
      rw [leadingBit]
      omega
  · obtain ⟨inside, within⟩ := low.resolve_left (by omega)
    have first : gridValue (coarser * leadingBit + number) <
        leadingBit * (2 : ℚ) ^ ((place : Int) - 1074) := by
      rw [← gridValue_eq (.inr le_rfl) (by omega), gridValue_strictMono.lt_iff_lt]
      have := Nat.mul_le_mul_right leadingBit (Nat.not_le.1 above)
      rw [Nat.succ_mul] at this
      omega
    have nearest := (rounded leadingBit).1
    rw [abs_of_nonneg (a := x - leadingBit * _) (by linarith), ← here] at nearest
    have farther : |x - gridValue (place * leadingBit + count)| <
        |x - gridValue (coarser * leadingBit + number)| := by
      rw [abs_of_pos (a := x - gridValue (coarser * leadingBit + number)) (by linarith)]
      linarith
    exact ⟨farther.le, fun equal => absurd equal farther.ne'⟩

/-- A number that is not below infinity is rounded to it. -/
theorem isNearest_infinity {x : ℚ} (beyond : infinity.value ≤ x) : IsNearest x infinity := by
  refine .of_lt fun other ne => ?_
  have less : other.value < infinity.value := value_lt_value_iff.2
    (Nat.lt_of_le_of_ne other.le_infinity fun same => ne (Magnitude.ext same))
  rw [abs_of_nonneg (by linarith), abs_of_pos (by linarith)]
  linarith

/-- Bits beyond infinity mean infinity. -/
theorem IsNearestBits.isNearest {x : ℚ} {bits : Nat} (nearest : IsNearestBits x bits) :
    IsNearest x (ofBits bits) := by
  by_cases finite : bits ≤ infinityBits
  · have same : (ofBits bits).bits = bits := Nat.min_eq_left finite
    constructor
    · intro other
      rw [value_eq_gridValue, value_eq_gridValue, same]
      exact (nearest other.bits).1
    · intro other equal
      rw [value_eq_gridValue, value_eq_gridValue, same] at equal
      rw [same]
      exact ((nearest other.bits).2 equal).imp_left fun bits => Magnitude.ext (bits.trans same.symm)
  · have capped : ofBits bits = infinity := Magnitude.ext (Nat.min_eq_right (Nat.not_le.1 finite).le)
    rw [capped]
    refine isNearest_infinity ?_
    by_contra below
    have farther : gridValue infinityBits < gridValue bits :=
      gridValue_strictMono (Nat.not_le.1 finite)
    have limit := (nearest infinityBits).1
    rw [value_eq_gridValue] at below
    have less : x < gridValue infinityBits := not_le.1 below
    rw [abs_of_neg (by linarith), abs_of_neg (by linarith)] at limit
    linarith

/-- A ratio is rounded to the nearest magnitude. -/
theorem isNearest_ofRatio (num : Nat) {den : Nat} (hden : 0 < den) :
    IsNearest (ratioValue num den) (ofRatio num den) := by
  by_cases none : num = 0
  · rw [none, ofRatio, if_pos rfl, ratioValue, Nat.cast_zero, zero_div, ← value_zero]
    exact .self zero
  · have hnum := Nat.pos_of_ne_zero none
    have positive := ratioValue_pos hnum hden
    rw [ofRatio, if_neg none, floorLog2_eq_log hnum hden]
    generalize log : Int.log 2 (ratioValue num den) = logarithm
    obtain ⟨place, isPlace⟩ : ∃ place : Nat, max (logarithm - 52) (-1074) = (place : Int) - 1074 :=
      ⟨(max (logarithm - 52) (-1074) + 1074).toNat, by omega⟩
    have unit : (0 : ℚ) < 2 ^ ((place : Int) - 1074) := zpow_pos two_pos _
    dsimp only
    rw [isPlace, sub_add_cancel, Int.toNat_natCast]
    have scaledPositive := scaleRatio_den_pos (-((place : Int) - 1074)) num hden
      (by decide : 0 < 2)
    have scaled := ratioValue_scaleRatio num den 2 (by decide) (-((place : Int) - 1074))
    rw [Nat.cast_ofNat, zpow_neg, ← div_eq_mul_inv, eq_div_iff unit.ne'] at scaled
    generalize scaleRatio num den 2 (-((place : Int) - 1074)) = ratio at scaledPositive scaled ⊢
    -- Bounds of the scaled ratio are those of the logarithm.
    have above : ratioValue ratio.1 ratio.2 ≤ (2 * leadingBit : Nat) := by
      have bound := (Int.lt_zpow_iff_log_lt (by decide : 1 < 2) positive).2
        (show Int.log 2 (ratioValue num den) < (53 : Int) + ((place : Int) - 1074) by omega)
      rw [Nat.cast_ofNat, zpow_add₀ two_ne_zero, ← scaled] at bound
      have less := lt_of_mul_lt_mul_right bound unit.le
      have size : ((2 * leadingBit : Nat) : ℚ) = 2 ^ (53 : Int) := by norm_num [leadingBit]
      rw [size]
      exact less.le
    have below : place = 0 ∨ (leadingBit : ℚ) ≤ ratioValue ratio.1 ratio.2 := by
      by_cases first : place = 0
      · exact .inl first
      · have bound := (Int.zpow_le_iff_le_log (by decide : 1 < 2) positive).2
          (show (52 : Int) + ((place : Int) - 1074) ≤ Int.log 2 (ratioValue num den) by omega)
        rw [Nat.cast_ofNat, zpow_add₀ two_ne_zero, ← scaled] at bound
        have size : (leadingBit : ℚ) = 2 ^ (52 : Int) := by norm_num [leadingBit]
        rw [size]
        exact .inr (le_of_mul_le_mul_right bound unit)
    rw [← scaled]
    refine (isNearestBits_of_grid (below.imp_right fun within => ⟨?_, ?_⟩)
      (roundRatio_le scaledPositive above) fun other => ?_).isNearest
    · exact le_roundRatio scaledPositive within
    · exact mul_le_mul_of_nonneg_right within unit.le
    · have nearest := roundRatio_nearest ratio.1 scaledPositive other
      rw [← sub_mul, ← sub_mul, abs_mul, abs_mul, abs_of_pos unit,
        mul_le_mul_iff_left₀ unit, mul_left_inj' unit.ne']
      exact nearest

/-! ## Counting digits -/

theorem digitCount_pos {n : Nat} (positive : 0 < n) : 0 < digitCount n := by
  rw [digitCount, if_neg positive.ne']
  exact Nat.length_toDigits_pos

theorem digitCount_le_iff (n count : Nat) : digitCount n ≤ count ↔ n < 10 ^ count := by
  by_cases zero : n = 0
  · simp [digitCount, zero]
  · rw [digitCount, if_neg zero]
    cases count with
    | zero =>
        have := @Nat.length_toDigits_pos 10 n
        omega
    | succ count => exact Nat.length_toDigits_le_iff (by decide) (Nat.succ_pos count)

theorem lt_pow_digitCount (n : Nat) : n < 10 ^ digitCount n :=
  (digitCount_le_iff n _).1 (Nat.le_refl _)

theorem pow_digitCount_le {n : Nat} (positive : 0 < n) : 10 ^ (digitCount n - 1) ≤ n := by
  have := digitCount_pos positive
  have := mt (digitCount_le_iff n (digitCount n - 1)).2
  omega

/-! ## Rounding a decimal -/

theorem ratioValue_decimal (digits : Nat) (scale : Int) :
    ratioValue (scaleRatio digits 1 10 scale).1 (scaleRatio digits 1 10 scale).2 =
      digits * (10 : ℚ) ^ scale := by
  rw [ratioValue_scaleRatio digits 1 10 (by decide), ratioValue, Nat.cast_one, div_one,
    Nat.cast_ofNat]

theorem value_infinity : infinity.value = 2 ^ (1024 : Int) := by
  have parts : infinity.significand = 2 ^ 52 ∧ infinity.exponent = 972 := by decide
  rw [value, parts.1, parts.2, Nat.cast_pow, Nat.cast_ofNat, ← zpow_natCast,
    ← zpow_add₀ two_ne_zero]
  rfl

/-- A number below half of the smallest magnitude is rounded to zero. -/
theorem isNearest_zero {x : ℚ} (nonnegative : 0 ≤ x) (below : x < 2 ^ (-1075 : Int)) :
    IsNearest x zero := by
  refine .of_lt fun other ne => ?_
  have positive : 1 ≤ other.bits := Nat.pos_of_ne_zero fun none => ne (Magnitude.ext none)
  have smallest : gridValue 1 = 2 * (2 : ℚ) ^ (-1075 : Int) := by
    rw [gridValue, if_pos (by decide), Nat.cast_one, one_mul, ← zpow_one_add₀ two_ne_zero]
    rfl
  have bound := gridValue_strictMono.monotone positive
  rw [smallest, ← value_eq_gridValue] at bound
  rw [value_zero, sub_zero, abs_of_nonneg nonnegative, abs_of_neg (by linarith)]
  linarith

/-- A decimal with too many digits in front of its point is not below infinity. -/
theorem value_infinity_le {digits : Nat} {scale : Int} (positive : 0 < digits)
    (large : 311 < (digitCount digits : Int) + scale) :
    infinity.value ≤ digits * (10 : ℚ) ^ scale := by
  have power : (0 : ℚ) < 10 ^ scale := zpow_pos (by norm_num) _
  have low : (10 : ℚ) ^ (digitCount digits - 1) ≤ digits := by
    exact_mod_cast pow_digitCount_le positive
  have count : (((digitCount digits - 1 : Nat) : Int) + scale) ≥ 311 := by
    have := digitCount_pos positive
    omega
  have powers : (2 : ℚ) ^ (1024 : Int) ≤ 10 ^ (311 : Int) := by
    have : 2 ^ 1024 ≤ 10 ^ 311 := by decide +kernel
    exact_mod_cast this
  calc infinity.value = (2 : ℚ) ^ (1024 : Int) := value_infinity
    _ ≤ 10 ^ (311 : Int) := powers
    _ ≤ 10 ^ (((digitCount digits - 1 : Nat) : Int) + scale) :=
        zpow_le_zpow_right₀ (by norm_num) count
    _ = 10 ^ (digitCount digits - 1) * (10 : ℚ) ^ scale := by
        rw [zpow_add₀ (by norm_num : (10 : ℚ) ≠ 0), zpow_natCast]
    _ ≤ digits * (10 : ℚ) ^ scale := mul_le_mul_of_nonneg_right low power.le

/-- A decimal with too many zeros behind its point is below half of the smallest magnitude. -/
theorem decimal_lt {digits : Nat} {scale : Int}
    (small : (digitCount digits : Int) + scale < -330) :
    digits * (10 : ℚ) ^ scale < 2 ^ (-1075 : Int) := by
  have power : (0 : ℚ) < 10 ^ scale := zpow_pos (by norm_num) _
  have high : (digits : ℚ) < 10 ^ digitCount digits := by
    exact_mod_cast lt_pow_digitCount digits
  have powers : (10 : ℚ) ^ (-331 : Int) < 2 ^ (-1075 : Int) := by
    have : 2 ^ 1075 < 10 ^ 331 := by decide +kernel
    rw [zpow_neg, zpow_neg, inv_lt_inv₀ (zpow_pos (by norm_num) _) (zpow_pos two_pos _)]
    exact_mod_cast this
  calc digits * (10 : ℚ) ^ scale
      < 10 ^ digitCount digits * (10 : ℚ) ^ scale := mul_lt_mul_of_pos_right high power
    _ = 10 ^ ((digitCount digits : Int) + scale) := by
        rw [zpow_add₀ (by norm_num : (10 : ℚ) ≠ 0), zpow_natCast]
    _ ≤ (10 : ℚ) ^ (-331 : Int) := zpow_le_zpow_right₀ (by norm_num) (by omega)
    _ < 2 ^ (-1075 : Int) := powers

/-- A decimal is rounded to the nearest magnitude. -/
theorem isNearest_ofDecimal (digits : Nat) (scale : Int) :
    IsNearest (digits * (10 : ℚ) ^ scale) (ofDecimal digits scale) := by
  by_cases none : digits = 0
  · rw [none, ofDecimal, if_pos rfl, Nat.cast_zero, zero_mul, ← value_zero]
    exact .self zero
  · rw [ofDecimal, if_neg none]
    dsimp only
    split
    · rename_i large
      exact isNearest_infinity (value_infinity_le (Nat.pos_of_ne_zero none) large)
    · split
      · rename_i small
        have power : (0 : ℚ) < 10 ^ scale := zpow_pos (by norm_num) _
        exact isNearest_zero (mul_nonneg (Nat.cast_nonneg _) power.le) (decimal_lt small)
      · rw [← ratioValue_decimal]
        exact isNearest_ofRatio _ (scaleRatio_den_pos _ _ Nat.one_pos (by decide : 0 < 10))

end Folio.Magnitude
