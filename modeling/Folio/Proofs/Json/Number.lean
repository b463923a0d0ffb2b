import Folio.Proofs.Binary64.Shortest
import Folio.Proofs.Json.Numeral

/-!
# Numbers read back

The text of an integer reads as that integer, and the text of a finite double
reads as that double.  The text of a double has a fraction or an exponent in each
of its layouts, so it never reads as an integer, and in each layout its digits and
its power of ten have the value of the decimal that is laid out.
-/

namespace Folio.Json

open Text

/-! ## Integers -/

def WrittenNumber.ofInt (n : Int) : WrittenNumber where
  negative := n < 0
  whole := .ofNat n.natAbs
  noLeadingZero := fun zero => by
    by_cases positive : 0 < n.natAbs
    · exact absurd zero (head?_toDigits_ne_zero positive)
    · have : n.natAbs = 0 := by omega
      rw [this]
      rfl
  fraction := none
  exponent := none

theorem chars_ofInt (n : Int) : (WrittenNumber.ofInt n).chars = integerChars n := by
  rw [WrittenNumber.chars, integerChars]
  by_cases negative : n < 0 <;>
    simp [WrittenNumber.ofInt, negative, WrittenNumber.fractionChars, WrittenNumber.exponentChars,
      Digits.ofNat]

theorem toInt?_numeral_ofInt (n : Int) : (WrittenNumber.ofInt n).numeral.toInt? = some n := by
  have digits : (WrittenNumber.ofInt n).numeral.digits = n.natAbs := by
    simp [WrittenNumber.numeral, WrittenNumber.fractionDigits, WrittenNumber.ofInt, Digits.ofNat,
      digitsNumber_toDigits]
  have whole : (WrittenNumber.ofInt n).numeral.isWhole = true := rfl
  have sign : (WrittenNumber.ofInt n).numeral.negative = decide (n < 0) := rfl
  rw [Numeral.toInt?, digits, whole, sign]
  by_cases negative : n < 0
  · have nonzero : n.natAbs ≠ 0 := by omega
    simp only [negative, nonzero, decide_true, Bool.true_and, Bool.not_eq_true', beq_eq_false_iff_ne,
      ne_eq, not_false_eq_true, if_true]
    rw [Option.some.injEq]
    omega
  · simp only [negative, decide_false, Bool.false_and, Bool.not_false, Bool.and_true, if_true]
    rw [Option.some.injEq, if_neg Bool.false_ne_true]
    omega

theorem isInt64_toInt (i : Int64) : isInt64 i.toInt = true := by
  have low := i.le_toInt
  have high := i.toInt_lt
  rw [isInt64, Bool.and_eq_true, decide_eq_true_eq, decide_eq_true_eq]
  omega

/-- The text of an integer is a number that reads as the integer. -/
theorem exists_writtenNumber_integer (i : Int64) :
    ∃ number : WrittenNumber, number.chars = integerChars i.toInt ∧
      number.numeral.toJson? = some (.integer i) := by
  refine ⟨.ofInt i.toInt, chars_ofInt i.toInt, ?_⟩
  rw [Numeral.toJson?, toInt?_numeral_ofInt, Option.filter_some, isInt64_toInt]
  simp

/-! ## Layouts of a double -/

def signChars (negative : Bool) : List Char := if negative then ['-'] else []

/--
These characters write a number that is not whole, and its digits and its power of
ten have the value of a decimal.
-/
def WritesDecimal (negative : Bool) (chars : List Char) (digits : Nat) (scale : Int) : Prop :=
  ∃ number : WrittenNumber,
    number.negative = negative ∧ number.chars = signChars negative ++ chars ∧
      number.numeral.isWhole = false ∧
        Magnitude.ofDecimal number.numeral.digits number.numeral.scale =
          Magnitude.ofDecimal digits scale

/-- The significant digits of a positive number: without zeros at both ends. -/
structure Significant where
  digits : Digits
  first : digits.chars.head? ≠ some '0'

namespace Significant

def number (s : Significant) : Nat := digitsNumber s.digits.chars

def behindZeros (s : Significant) (count : Nat) : Digits where
  chars := List.replicate count '0' ++ s.digits.chars
  nonempty := fun nil => s.digits.nonempty (List.append_eq_nil_iff.1 nil).2
  isDigit := fun c mem => by
    rcases List.mem_append.1 mem with mem | mem
    · rw [List.eq_of_mem_replicate mem]
      rfl
    · exact s.digits.isDigit c mem

def beforeZeros (s : Significant) (count : Nat) : Digits where
  chars := s.digits.chars ++ List.replicate count '0'
  nonempty := fun nil => s.digits.nonempty (List.append_eq_nil_iff.1 nil).1
  isDigit := fun c mem => by
    rcases List.mem_append.1 mem with mem | mem
    · exact s.digits.isDigit c mem
    · rw [List.eq_of_mem_replicate mem]
      rfl

theorem head?_append_ne_zero (s : Significant) (rest : List Char) :
    (s.digits.chars ++ rest).head? ≠ some '0' := by
  rw [List.head?_append_of_ne_nil _ s.digits.nonempty]
  exact s.first

end Significant

def zeroDigits : Digits := .ofNat 0

theorem writesDecimal_zero (negative : Bool) : WritesDecimal negative ['0', '.', '0'] 0 0 := by
  refine ⟨⟨negative, zeroDigits, fun _ => rfl, some zeroDigits, none⟩, rfl, rfl, rfl, ?_⟩
  have digits : digitsNumber ['0', '0'] = 0 := rfl
  change Magnitude.ofDecimal (digitsNumber ['0', '0']) _ = _
  rw [digits, Magnitude.ofDecimal, Magnitude.ofDecimal, if_pos rfl, if_pos rfl]

theorem writesDecimal_belowOne (s : Significant) (negative : Bool) {leading : Int}
    (below : leading < 0) :
    WritesDecimal negative
      ('0' :: '.' :: (List.replicate (-leading - 1).toNat '0' ++ s.digits.chars)) s.number
      (leading + 1 - s.digits.chars.length) := by
  refine ⟨⟨negative, zeroDigits, fun _ => rfl, some (s.behindZeros (-leading - 1).toNat), none⟩,
    rfl, ?_, rfl, ?_⟩
  · rw [WrittenNumber.chars, WrittenNumber.exponentChars, List.append_nil]
    rfl
  · have digits : digitsNumber ('0' :: (List.replicate (-leading - 1).toNat '0' ++ s.digits.chars)) =
        s.number := by
      rw [digitsNumber_zero_cons, digitsNumber_zeros_append, Significant.number]
    have scale : (0 : Int) - ((s.behindZeros (-leading - 1).toNat).chars.length : Nat) =
        leading + 1 - s.digits.chars.length := by
      rw [Significant.behindZeros, List.length_append, List.length_replicate]
      omega
    change Magnitude.ofDecimal (digitsNumber ('0' :: (List.replicate _ '0' ++ s.digits.chars)))
      ((0 : Int) - ((s.behindZeros (-leading - 1).toNat).chars.length : Nat)) = _
    rw [digits, scale]

theorem writesDecimal_whole (s : Significant) (negative : Bool) {leading : Int}
    (whole : s.digits.chars.length ≤ leading.toNat + 1) (nonnegative : 0 ≤ leading) :
    WritesDecimal negative
      (s.digits.chars ++ List.replicate (leading.toNat + 1 - s.digits.chars.length) '0' ++ ['.', '0'])
      s.number (leading + 1 - s.digits.chars.length) := by
  refine ⟨⟨negative, s.beforeZeros (leading.toNat + 1 - s.digits.chars.length),
    fun zero => absurd zero (s.head?_append_ne_zero _), some zeroDigits, none⟩, rfl, ?_, rfl, ?_⟩
  · rw [WrittenNumber.chars, WrittenNumber.exponentChars, List.append_nil]
    rfl
  · have digits : digitsNumber (s.digits.chars ++
        List.replicate (leading.toNat + 1 - s.digits.chars.length) '0' ++ List.replicate 1 '0') =
        s.number * 10 ^ (leading.toNat + 1 - s.digits.chars.length) * 10 ^ 1 := by
      rw [digitsNumber_append_zeros, digitsNumber_append_zeros, Significant.number]
    change Magnitude.ofDecimal (digitsNumber (s.digits.chars ++
      List.replicate (leading.toNat + 1 - s.digits.chars.length) '0' ++ List.replicate 1 '0'))
        ((0 : Int) - (1 : Nat)) = _
    rw [digits, Magnitude.ofDecimal_mul_pow, Magnitude.ofDecimal_mul_pow]
    congr 1
    omega

theorem writesDecimal_parted (s : Significant) (negative : Bool) {leading : Int}
    (parted : leading.toNat + 1 < s.digits.chars.length) (nonnegative : 0 ≤ leading) :
    WritesDecimal negative
      (s.digits.chars.take (leading.toNat + 1) ++ '.' :: s.digits.chars.drop (leading.toNat + 1))
      s.number (leading + 1 - s.digits.chars.length) := by
  let front : Digits := ⟨s.digits.chars.take (leading.toNat + 1), by
    rw [ne_eq, List.take_eq_nil_iff]
    exact fun nil => nil.elim (Nat.succ_ne_zero _) s.digits.nonempty,
    fun c mem => s.digits.isDigit c (List.mem_of_mem_take mem)⟩
  let back : Digits := ⟨s.digits.chars.drop (leading.toNat + 1), by
    rw [ne_eq, List.drop_eq_nil_iff]
    omega, fun c mem => s.digits.isDigit c (List.mem_of_mem_drop mem)⟩
  have first : front.chars.head? ≠ some '0' := by
    rw [List.head?_take, if_neg (Nat.succ_ne_zero _)]
    exact s.first
  refine ⟨⟨negative, front, fun zero => absurd zero first, some back, none⟩, rfl, ?_, rfl, ?_⟩
  · rw [WrittenNumber.chars, WrittenNumber.exponentChars, List.append_nil]
    rfl
  · change Magnitude.ofDecimal (digitsNumber (s.digits.chars.take (leading.toNat + 1) ++
      s.digits.chars.drop (leading.toNat + 1)))
        ((0 : Int) - (s.digits.chars.drop (leading.toNat + 1)).length) = _
    rw [List.take_append_drop, List.length_drop, Significant.number]
    congr 1
    omega

/-- The exponent of a written number; its sign is always written. -/
def exponentOf (leading : Int) : WrittenExponent :=
  ⟨false, some (decide (leading < 0)), .ofNat leading.natAbs⟩

theorem exponentValue_exponentOf (leading : Int) :
    WrittenNumber.exponentValue (some (exponentOf leading)) = leading := by
  simp only [exponentOf, WrittenNumber.exponentValue, WrittenExponent.value, Digits.ofNat,
    digitsNumber_toDigits, Option.some.injEq, decide_eq_true_eq]
  split <;> omega

theorem exponentChars_exponentOf (leading : Int) :
    WrittenNumber.exponentChars (some (exponentOf leading)) =
      'e' :: (if leading < 0 then '-' else '+') :: Nat.toDigits 10 leading.natAbs := by
  by_cases negative : leading < 0 <;>
    simp [exponentOf, WrittenNumber.exponentChars, WrittenExponent.chars,
      WrittenExponent.signChars, Digits.ofNat, negative]

theorem writesDecimal_scientific (s : Significant) (negative : Bool) (leading : Int) :
    WritesDecimal negative (FloatLayout.scientific s.digits.chars leading) s.number
      (leading + 1 - s.digits.chars.length) := by
  obtain ⟨⟨chars, nonempty, isDigit⟩, first⟩ := s
  match chars, nonempty, isDigit, first with
  | [c], nonempty, isDigit, _ =>
      refine ⟨⟨negative, ⟨[c], nonempty, isDigit⟩, fun _ => rfl, none, some (exponentOf leading)⟩,
        rfl, ?_, rfl, ?_⟩
      · rw [WrittenNumber.chars, exponentChars_exponentOf]
        rfl
      · change Magnitude.ofDecimal (digitsNumber ([c] ++ []))
          (WrittenNumber.exponentValue (some (exponentOf leading)) - (0 : Nat)) = _
        rw [exponentValue_exponentOf, List.append_nil]
        congr 1
        simp
  | c :: d :: rest, _, isDigit, _ =>
      refine ⟨⟨negative, ⟨[c], List.cons_ne_nil c [], fun e mem => isDigit e (by simp_all)⟩,
        fun _ => rfl, some ⟨d :: rest, List.cons_ne_nil d rest, fun e mem =>
          isDigit e (List.mem_cons_of_mem c mem)⟩, some (exponentOf leading)⟩, rfl, ?_, rfl, ?_⟩
      · rw [WrittenNumber.chars, exponentChars_exponentOf]
        rfl
      · change Magnitude.ofDecimal (digitsNumber ([c] ++ d :: rest))
          (WrittenNumber.exponentValue (some (exponentOf leading)) - ((d :: rest).length : Nat)) = _
        rw [exponentValue_exponentOf]
        simp only [Significant.number, List.singleton_append, List.length_cons]
        congr 1
        omega

/-! ## Doubles -/

/-- The digits of a positive number are its significant digits and some zeros. -/
theorem exists_significant {n : Nat} (positive : 0 < n) :
    ∃ (s : Significant) (zeros : Nat), s.digits.chars = FloatLayout.significantDigits n ∧
      n = s.number * 10 ^ zeros ∧
        Magnitude.digitCount n = s.digits.chars.length + zeros := by
  have kept : ∃ zeros, Nat.toDigits 10 n =
      FloatLayout.significantDigits n ++ List.replicate zeros '0' := by
    refine ⟨((Nat.toDigits 10 n).reverse.takeWhile (· == '0')).length, ?_⟩
    have zeros : ((Nat.toDigits 10 n).reverse.takeWhile (· == '0')).reverse =
        List.replicate ((Nat.toDigits 10 n).reverse.takeWhile (· == '0')).length '0' := by
      rw [List.eq_replicate_iff]
      refine ⟨List.length_reverse, fun c mem => ?_⟩
      have passes := List.all_eq_true.1 List.all_takeWhile c (List.mem_reverse.1 mem)
      exact eq_of_beq passes
    rw [FloatLayout.significantDigits, ← zeros, ← List.reverse_append, List.takeWhile_append_dropWhile,
      List.reverse_reverse]
  obtain ⟨zeros, digits⟩ := kept
  have first := head?_toDigits_ne_zero positive
  have nonempty : FloatLayout.significantDigits n ≠ [] := by
    intro nil
    rw [nil, List.nil_append] at digits
    cases zeros with
    | zero => exact Nat.toDigits_ne_nil digits
    | succ zeros => exact first (by rw [digits]; rfl)
  have isDigit : ∀ c ∈ FloatLayout.significantDigits n, c.isDigit = true := fun c mem =>
    Nat.isDigit_of_mem_toDigits (by decide) (by decide)
      (digits ▸ List.mem_append_left _ mem : c ∈ Nat.toDigits 10 n)
  rw [digits, List.head?_append_of_ne_nil _ nonempty] at first
  refine ⟨⟨⟨FloatLayout.significantDigits n, nonempty, isDigit⟩, first⟩, zeros, rfl, ?_, ?_⟩
  · rw [Significant.number, ← digitsNumber_append_zeros, ← digits, digitsNumber_toDigits]
  · rw [Magnitude.digitCount, if_neg positive.ne', digits, List.length_append, List.length_replicate]

theorem writesDecimal_decimalChars (negative : Bool) (d : Decimal) :
    WritesDecimal negative (FloatLayout.encoded.decimalChars d) d.digits d.scale := by
  by_cases zero : d.digits = 0
  · have chars : FloatLayout.encoded.decimalChars d = ['0', '.', '0'] := by
      rw [FloatLayout.decimalChars, if_pos zero]
      rfl
    have value : Magnitude.ofDecimal d.digits d.scale = Magnitude.ofDecimal 0 0 := by
      rw [zero, Magnitude.ofDecimal, Magnitude.ofDecimal, if_pos rfl, if_pos rfl]
    rw [WritesDecimal, chars, value]
    exact writesDecimal_zero negative
  · obtain ⟨s, zeros, chars, number, count⟩ := exists_significant (Nat.pos_of_ne_zero zero)
    have value : Magnitude.ofDecimal d.digits d.scale = Magnitude.ofDecimal s.number
        (d.scale + (Magnitude.digitCount d.digits : Int) - 1 + 1 - s.digits.chars.length) := by
      rw [number, Magnitude.ofDecimal_mul_pow, ← number, count]
      congr 1
      omega
    rw [WritesDecimal, value, FloatLayout.decimalChars, if_neg zero, ← chars]
    dsimp only
    split
    · rw [FloatLayout.positional]
      split
      · rename_i below
        exact writesDecimal_belowOne s negative below
      · rename_i nonnegative
        dsimp only
        split
        · rename_i whole
          exact writesDecimal_whole s negative whole (Int.not_lt.1 nonnegative)
        · rename_i parted
          exact writesDecimal_parted s negative (Nat.not_le.1 parted) (Int.not_lt.1 nonnegative)
    · exact writesDecimal_scientific s negative _

/-- The text of a finite double is a number that reads as the double. -/
theorem exists_writtenNumber_float (negative : Bool) {m : Magnitude} (finite : m.isFinite = true) :
    ∃ number : WrittenNumber,
      number.chars = FloatLayout.encoded.chars (.signed negative m) ∧
        number.numeral.toJson? = some (.float (.signed negative m)) := by
  obtain ⟨number, sign, chars, notWhole, value⟩ :=
    writesDecimal_decimalChars negative (m.shortest FloatLayout.encoded.tie)
  have double : number.numeral.toBinary64 = .signed negative m := by
    rw [Numeral.toBinary64, value, Magnitude.ofDecimal_shortest]
    exact congrArg (Binary64.signed · m) sign
  have noInt : number.numeral.toInt? = none := by
    rw [Numeral.toInt?, notWhole, Bool.false_and, if_neg Bool.false_ne_true]
  refine ⟨number, ?_, ?_⟩
  · rw [chars, FloatLayout.chars, if_pos finite, signChars]
  · rw [Numeral.toJson?, noInt, Option.filter_none, double]
    exact if_pos finite

/-! ## Reading -/

theorem skipBlank_eq_self {bytes : Bytes} (h : ∀ b ∈ bytes.head?, isBlank b = false) :
    skipBlank bytes = bytes := by
  cases bytes with
  | nil => rfl
  | cons b more => rw [skipBlank, List.dropWhile_cons_of_neg (by simp [h b rfl])]

/-- A number begins with a minus sign or a digit. -/
theorem exists_cons_writtenNumber (number : WrittenNumber) :
    ∃ b more, encode number.chars = b :: more ∧ (b = ascii '-' ∨ isDigit b = true) := by
  cases negative : number.negative with
  | true =>
      refine ⟨ascii '-', encode (number.whole.chars ++ (WrittenNumber.fractionChars number.fraction ++
        WrittenNumber.exponentChars number.exponent)), ?_, Or.inl rfl⟩
      rw [WrittenNumber.chars, negative]
      rfl
  | false =>
      obtain ⟨c, more, -, isDigit, bytes⟩ := exists_cons_digits number.whole
      refine ⟨ascii c, encode more ++ encode (WrittenNumber.fractionChars number.fraction ++
        WrittenNumber.exponentChars number.exponent), ?_, Or.inr (isDigit_ascii isDigit)⟩
      rw [WrittenNumber.chars, negative, if_neg Bool.false_ne_true, List.nil_append, encode_append,
        bytes, List.cons_append]

/-- Bytes that begin a number are neither blank nor the first bytes of other values. -/
theorem ne_ascii_of_number {b : UInt8} (first : b = ascii '-' ∨ isDigit b = true) {c : Char}
    (other : ascii c ≠ ascii '-' ∧ isDigit (ascii c) = false) : b ≠ ascii c := by
  rintro rfl
  rcases first with minus | digit
  · exact other.1 minus
  · rw [other.2] at digit
    exact Bool.false_ne_true digit

theorem isBlank_number {b : UInt8} (first : b = ascii '-' ∨ isDigit b = true) :
    isBlank b = false := by
  simp only [isBlank, Bool.or_eq_false_iff, beq_eq_false_iff_ne]
  exact ⟨⟨⟨ne_ascii_of_number first (by decide), ne_ascii_of_number first (by decide)⟩,
    ne_ascii_of_number first (by decide)⟩, ne_ascii_of_number first (by decide)⟩

/-- A written number is read as a value. -/
theorem readValue_writtenNumber {number : WrittenNumber} {value : Json}
    (json : number.numeral.toJson? = some value) (depth : Nat) {rest : Bytes}
    (ends : EndsNumber rest) :
    readValue depth (encode number.chars ++ rest) = .ok (value, rest) := by
  have numeral := readNumeral_encode number ends
  obtain ⟨b, more, bytes, first⟩ := exists_cons_writtenNumber number
  rw [bytes, List.cons_append] at numeral ⊢
  have blank : skipBlank (b :: (more ++ rest)) = b :: (more ++ rest) :=
    skipBlank_eq_self fun d mem => by
      rw [← Option.some.inj mem]
      exact isBlank_number first
  rw [readValue, blank]
  dsimp only
  rw [if_neg (ne_ascii_of_number first (by decide)), if_neg (ne_ascii_of_number first (by decide)),
    if_neg (ne_ascii_of_number first (by decide)), if_pos first, readNumber, numeral]
  simp only [bind, Except.bind, json]

end Folio.Json
