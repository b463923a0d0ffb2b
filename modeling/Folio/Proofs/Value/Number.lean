import Folio.Proofs.Binary64.Nearest
import Folio.Proofs.Json.Number
import Folio.Value

/-!
# The values of written numbers

A number that is written without fraction and exponent is an integer, if it fits into
sixty-four bits and is not a negative zero.  Every other number is the nearest double,
if that is finite.
-/

namespace Folio

open Json Text

namespace Json.WrittenNumber

variable (number : WrittenNumber)

def size : ℚ :=
  digitsNumber (number.whole.chars ++ number.fractionDigits) *
    10 ^ (exponentValue number.exponent - number.fractionDigits.length)

def value : ℚ := if number.negative then -number.size else number.size

/-- Whether a number is written as an integer of sixty-four bits. -/
structure IsInteger (i : Int64) : Prop where
  noFraction : number.fraction = none
  noExponent : number.exponent = none
  notNegativeZero : ¬(number.negative = true ∧ number.value = 0)
  value : number.value = i.toInt

/-- The value that a written number denotes, if it denotes one. -/
inductive Denotes : Value → Prop where
  | integer {i : Int64} (isInteger : number.IsInteger i) : Denotes (.integer i)
  | float {m : Magnitude} (noInteger : ∀ i, ¬number.IsInteger i) (finite : m.isFinite = true)
      (nearest : Magnitude.IsNearest number.size m) : Denotes (.float (.signed number.negative m))

/-- The digits of a number without fraction and exponent are its size. -/
theorem size_of_whole (noFraction : number.fraction = none) (noExponent : number.exponent = none) :
    number.size = number.numeral.digits := by
  rw [size, noExponent, fractionDigits, noFraction, numeral, fractionDigits, noFraction]
  simp [exponentValue]

/-- What a number written without fraction and exponent is read as, unless it is a negative zero. -/
theorem toInt?_numeral_eq_some_iff (n : Int) :
    number.numeral.toInt? = some n ↔ number.fraction = none ∧ number.exponent = none ∧
      ¬(number.negative = true ∧ number.value = 0) ∧ number.value = n := by
  have isWhole : number.numeral.isWhole = true ↔
      number.fraction = none ∧ number.exponent = none := by
    simp [numeral]
  by_cases whole : number.fraction = none ∧ number.exponent = none
  · have sized := number.size_of_whole whole.1 whole.2
    have sign : number.numeral.negative = number.negative := rfl
    rw [Numeral.toInt?, isWhole.2 whole, sign, value, sized]
    simp only [whole.1, whole.2, true_and, Bool.true_and]
    generalize number.numeral.digits = digits
    cases number.negative with
    | false => simp; exact_mod_cast Iff.rfl
    | true =>
        by_cases zero : digits = 0
        · simp [zero]
        · simp [zero]
          exact_mod_cast Iff.rfl
  · have notWhole : number.numeral.isWhole = false :=
      Bool.eq_false_iff.2 fun written => whole (isWhole.1 written)
    rw [Numeral.toInt?, notWhole, Bool.false_and, if_neg Bool.false_ne_true]
    constructor
    · rintro ⟨⟩
    · rintro ⟨noFraction, noExponent, -⟩
      exact absurd ⟨noFraction, noExponent⟩ whole

theorem toInt_ofInt_of_isInt64 {n : Int} (fits : isInt64 n = true) : (Int64.ofInt n).toInt = n := by
  simp only [isInt64, Bool.and_eq_true, decide_eq_true_eq] at fits
  exact Int64.toInt_ofInt_of_le (by exact fits.1) (by exact fits.2)

/-- An integer is read iff one is written. -/
theorem filter_toInt?_eq_some_iff (n : Int) :
    number.numeral.toInt?.filter isInt64 = some n ↔
      ∃ i : Int64, number.IsInteger i ∧ i.toInt = n := by
  rw [Option.filter_eq_some_iff, toInt?_numeral_eq_some_iff]
  constructor
  · rintro ⟨⟨noFraction, noExponent, notNegativeZero, value⟩, fits⟩
    have same := toInt_ofInt_of_isInt64 fits
    exact ⟨Int64.ofInt n, ⟨noFraction, noExponent, notNegativeZero, by rw [same]; exact value⟩, same⟩
  · rintro ⟨i, written, rfl⟩
    exact ⟨⟨written.noFraction, written.noExponent, written.notNegativeZero, written.value⟩,
      isInt64_toInt i⟩

theorem isNearest_numeral :
    Magnitude.IsNearest number.size
      (Magnitude.ofDecimal number.numeral.digits number.numeral.scale) :=
  Magnitude.isNearest_ofDecimal _ _

/-- A number is read as the value that it denotes, and not read if it denotes none. -/
theorem toJson?_numeral_eq_some_iff (value : Value) :
    number.numeral.toJson? = some value.toJson ↔ number.Denotes value := by
  rw [Numeral.toJson?]
  cases integer : number.numeral.toInt?.filter isInt64 with
  | some n =>
      obtain ⟨i, written, rfl⟩ := (number.filter_toInt?_eq_some_iff n).1 integer
      dsimp only
      rw [Int64.ofInt_toInt]
      constructor
      · intro same
        cases value with
        | integer j =>
            rw [Value.toJson] at same
            cases same
            exact .integer written
        | boolean _ | float _ | string _ | sequence _ =>
            rw [Value.toJson] at same
            cases same
      · intro denotes
        cases denotes with
        | @integer j other =>
            have same : i.toInt = j.toInt := by exact_mod_cast written.value.symm.trans other.value
            rw [Int64.toInt_inj.1 same, Value.toJson]
        | float noInteger => exact absurd written (noInteger i)
  | none =>
      have noInteger : ∀ i, ¬number.IsInteger i := by
        intro i written
        rw [(number.filter_toInt?_eq_some_iff i.toInt).2 ⟨i, written, rfl⟩] at integer
        cases integer
      have double : number.numeral.toBinary64 = .signed number.negative
          (Magnitude.ofDecimal number.numeral.digits number.numeral.scale) := rfl
      dsimp only
      rw [double]
      constructor
      · intro read
        split at read
        · rename_i finite
          cases value with
          | float x =>
              rw [Value.toJson] at read
              cases read
              exact .float noInteger finite number.isNearest_numeral
          | boolean _ | integer _ | string _ | sequence _ =>
              rw [Value.toJson] at read
              cases read
        · cases read
      · intro denotes
        cases denotes with
        | integer written => exact absurd written (noInteger _)
        | float _ finite nearest =>
            rw [number.isNearest_numeral.unique nearest, Value.toJson]
            exact if_pos finite

end Json.WrittenNumber

end Folio
