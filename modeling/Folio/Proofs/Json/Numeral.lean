import Folio.Json.Reader
import Folio.Proofs.Text.Digits
import Folio.Proofs.Text.Utf8

/-!
# Reading written numbers

A written number is a sign, whole digits without a superfluous zero, and perhaps a
fraction and an exponent.  The reader takes exactly the written number from the
front of a text, if what follows cannot belong to it.
-/

namespace Folio.Json

open Text

/-! ## Digits -/

/-- What follows does not begin with a digit. -/
def EndsDigits (rest : Bytes) : Prop := ∀ b ∈ rest.head?, isDigit b = false

theorem isDigit_ascii {c : Char} (h : c.isDigit = true) : isDigit (ascii c) = true := by
  obtain ⟨low, high⟩ := toNat_lt_of_isDigit h
  have code : (ascii c).toNat = c.toNat := toNat_toUInt8 (by omega)
  rw [isDigit, Bool.and_eq_true, decide_eq_true_eq, decide_eq_true_eq, UInt8.le_iff_toNat_le,
    UInt8.le_iff_toNat_le, code]
  exact ⟨low, high⟩

theorem encode_digits {chars : List Char} (h : ∀ c ∈ chars, c.isDigit = true) :
    encode chars = chars.map ascii :=
  encode_of_ascii fun c mem => by
    have bounds := toNat_lt_of_isDigit (h c mem)
    omega

theorem isDigit_of_mem_encode {chars : List Char} (h : ∀ c ∈ chars, c.isDigit = true) {b : UInt8}
    (mem : b ∈ encode chars) : isDigit b = true := by
  rw [encode_digits h] at mem
  obtain ⟨c, inside, rfl⟩ := List.mem_map.1 mem
  exact isDigit_ascii (h c inside)

theorem digitsValue_encode {chars : List Char} (h : ∀ c ∈ chars, c.isDigit = true) :
    digitsValue (encode chars) = digitsNumber chars := by
  have same : ∀ (start : Nat), (∀ c ∈ chars, c.isDigit = true) →
      (chars.map ascii).foldl (fun n b => 10 * n + (b.toNat - 48)) start =
        Nat.ofDigitChars 10 chars start := by
    induction chars with
    | nil => intro start _; rfl
    | cons c rest ih =>
        intro start all
        have bounds := toNat_lt_of_isDigit (all c List.mem_cons_self)
        rw [List.map_cons, List.foldl_cons, toNat_toUInt8 (by omega), Nat.ofDigitChars_cons]
        exact ih (fun d mem => h d (List.mem_cons_of_mem c mem)) _
          fun d mem => all d (List.mem_cons_of_mem c mem)
  rw [digitsValue, encode_digits h]
  exact same 0 h

theorem readDigits_encode (digits : Digits) {rest : Bytes} (ends : EndsDigits rest) :
    readDigits (encode digits.chars ++ rest) = .ok (encode digits.chars, rest) := by
  have inside : ∀ b ∈ encode digits.chars, isDigit b = true := fun b mem =>
    isDigit_of_mem_encode digits.isDigit mem
  have behindTake : rest.takeWhile isDigit = [] := by
    cases rest with
    | nil => rfl
    | cons b more => simp [ends b rfl]
  have behindDrop : rest.dropWhile isDigit = rest := by
    cases rest with
    | nil => rfl
    | cons b more => simp [ends b rfl]
  have nonempty : encode digits.chars ≠ [] := by
    rw [encode_digits digits.isDigit]
    simpa using digits.nonempty
  rw [readDigits, List.takeWhile_append_of_pos inside, behindTake, List.append_nil,
    List.dropWhile_append_of_pos inside, behindDrop]
  cases parts : encode digits.chars with
  | nil => exact absurd parts nonempty
  | cons b more => rfl

/-! ## Numbers -/

structure WrittenExponent where
  /-- Whether the letter in front is upper case. -/
  upper : Bool
  /-- Whether the sign is a minus, if there is a sign. -/
  sign : Option Bool
  digits : Digits

namespace WrittenExponent

def signChars : Option Bool → List Char
  | none => []
  | some negative => if negative then ['-'] else ['+']

def chars (exponent : WrittenExponent) : List Char :=
  (if exponent.upper then 'E' else 'e') :: (signChars exponent.sign ++ exponent.digits.chars)

def value (exponent : WrittenExponent) : Int :=
  if exponent.sign = some true then -(digitsNumber exponent.digits.chars : Int)
  else digitsNumber exponent.digits.chars

end WrittenExponent

structure WrittenNumber where
  negative : Bool
  whole : Digits
  /-- A zero in front stands alone. -/
  noLeadingZero : whole.chars.head? = some '0' → whole.chars.length = 1
  fraction : Option Digits
  exponent : Option WrittenExponent

namespace WrittenNumber

def fractionChars : Option Digits → List Char
  | none => []
  | some digits => '.' :: digits.chars

def exponentChars : Option WrittenExponent → List Char
  | none => []
  | some exponent => exponent.chars

def chars (number : WrittenNumber) : List Char :=
  (if number.negative then ['-'] else []) ++
    (number.whole.chars ++ (fractionChars number.fraction ++ exponentChars number.exponent))

def fractionDigits (number : WrittenNumber) : List Char :=
  (number.fraction.map Digits.chars).getD []

def exponentValue : Option WrittenExponent → Int
  | none => 0
  | some exponent => exponent.value

theorem isDigit_fractionDigits (number : WrittenNumber) :
    ∀ c ∈ number.fractionDigits, c.isDigit = true := by
  rw [fractionDigits]
  cases number.fraction with
  | none => exact fun c mem => absurd mem List.not_mem_nil
  | some digits => exact digits.isDigit

/-- What the reader makes of a number. -/
def numeral (number : WrittenNumber) : Numeral where
  negative := number.negative
  isWhole := number.fraction.isNone && number.exponent.isNone
  digits := digitsNumber (number.whole.chars ++ number.fractionDigits)
  scale := exponentValue number.exponent - number.fractionDigits.length

end WrittenNumber

/-- What follows does not continue a number. -/
def EndsNumber (rest : Bytes) : Prop :=
  ∀ b ∈ rest.head?, isDigit b = false ∧ b ≠ ascii '.' ∧ b ≠ ascii 'e' ∧ b ≠ ascii 'E'

theorem EndsNumber.endsDigits {rest : Bytes} (ends : EndsNumber rest) : EndsDigits rest :=
  fun b mem => (ends b mem).1

/-- Digits begin with a digit. -/
theorem exists_cons_digits (digits : Digits) :
    ∃ c more, digits.chars = c :: more ∧ c.isDigit = true ∧
      encode digits.chars = ascii c :: encode more := by
  obtain ⟨c, more, chars⟩ := List.exists_cons_of_ne_nil digits.nonempty
  have isDigit := digits.isDigit c (by rw [chars]; exact List.mem_cons_self)
  have bounds := toNat_lt_of_isDigit isDigit
  exact ⟨c, more, chars, isDigit, by rw [chars, encode_cons_of_ascii (by omega)]⟩

theorem ascii_digit_ne {c d : Char} (digit : c.isDigit = true) (other : isDigit (ascii d) = false) :
    ascii c ≠ ascii d := by
  intro same
  rw [← same, isDigit_ascii digit] at other
  cases other

/-- A sign that is written is read, and digits are not taken for one. -/
theorem readSign_encode (sign : Option Bool) (digits : Digits) (rest : Bytes) :
    readSign (encode (WrittenExponent.signChars sign) ++ (encode digits.chars ++ rest)) =
      (decide (sign = some true), encode digits.chars ++ rest) := by
  match sign with
  | some true => rfl
  | some false => rfl
  | none =>
      obtain ⟨c, more, -, isDigit, bytes⟩ := exists_cons_digits digits
      rw [WrittenExponent.signChars, encode_nil, List.nil_append, bytes, List.cons_append, readSign,
        if_neg (ascii_digit_ne isDigit rfl), if_neg (ascii_digit_ne isDigit rfl)]
      rfl

theorem readExponent_encode (exponent : Option WrittenExponent) {rest : Bytes}
    (ends : EndsNumber rest) :
    readExponent (encode (WrittenNumber.exponentChars exponent) ++ rest) =
      .ok (exponent.map WrittenExponent.value, rest) := by
  cases exponent with
  | none =>
      cases rest with
      | nil => rfl
      | cons b more =>
          obtain ⟨-, -, lower, upper⟩ := ends b rfl
          simp [WrittenNumber.exponentChars, readExponent, lower, upper]
  | some e =>
      have letter : ∃ b, encode (WrittenNumber.exponentChars (some e)) ++ rest =
          b :: (encode (WrittenExponent.signChars e.sign) ++ (encode e.digits.chars ++ rest)) ∧
            (b = ascii 'e' ∨ b = ascii 'E') := by
        rw [WrittenNumber.exponentChars, WrittenExponent.chars]
        cases e.upper with
        | true =>
            refine ⟨ascii 'E', ?_, .inr rfl⟩
            rw [if_pos rfl, encode_cons_of_ascii (by decide), encode_append, List.cons_append,
              List.append_assoc]
        | false =>
            refine ⟨ascii 'e', ?_, .inl rfl⟩
            rw [if_neg Bool.false_ne_true, encode_cons_of_ascii (by decide), encode_append,
              List.cons_append, List.append_assoc]
      obtain ⟨b, bytes, isLetter⟩ := letter
      rw [bytes, readExponent, if_pos isLetter, readSign_encode]
      simp [readDigits_encode e.digits ends.endsDigits, digitsValue_encode e.digits.isDigit, bind,
        Except.bind, WrittenExponent.value]

theorem readFraction_encode (fraction : Option Digits) {rest : Bytes}
    (ends : EndsDigits rest) (noPoint : rest.head? ≠ some (ascii '.')) :
    readFraction (encode (WrittenNumber.fractionChars fraction) ++ rest) =
      .ok (fraction.map fun digits => encode digits.chars, rest) := by
  cases fraction with
  | none =>
      cases rest with
      | nil => rfl
      | cons b more =>
          have other : b ≠ ascii '.' := fun same => noPoint (by rw [same, List.head?_cons])
          simp [WrittenNumber.fractionChars, readFraction, other]
  | some digits =>
      have shape : encode (WrittenNumber.fractionChars (some digits)) ++ rest =
          ascii '.' :: (encode digits.chars ++ rest) := rfl
      rw [shape, readFraction, if_pos rfl, readDigits_encode digits ends]
      rfl

theorem readWhole_encode (number : WrittenNumber) {rest : Bytes} (ends : EndsDigits rest) :
    readWhole (encode number.whole.chars ++ rest) = .ok (encode number.whole.chars, rest) := by
  have single : (encode number.whole.chars).head? = some (ascii '0') →
      ¬ 1 < (encode number.whole.chars).length := by
    intro zero
    rw [encode_digits number.whole.isDigit, List.head?_map] at zero
    obtain ⟨c, first, code⟩ := Option.map_eq_some_iff.1 zero
    have isZero : c = '0' := by
      have bounds := toNat_lt_of_isDigit
        (number.whole.isDigit c (List.mem_of_mem_head? (by rw [first]; rfl)))
      have codes := congrArg UInt8.toNat code
      rw [toNat_toUInt8 (by omega)] at codes
      exact Char.toNat_inj.1 codes
    rw [isZero] at first
    rw [encode_digits number.whole.isDigit, List.length_map, number.noLeadingZero first]
    decide
  rw [readWhole, readDigits_encode number.whole ends]
  simp only [bind, Except.bind]
  rw [if_neg fun both => single both.1 both.2]

/-- The letter of an exponent ends digits. -/
theorem endsDigits_letter (exponent : WrittenExponent) (rest : Bytes) :
    EndsDigits (encode exponent.chars ++ rest) ∧
      (encode exponent.chars ++ rest).head? ≠ some (ascii '.') := by
  rw [WrittenExponent.chars]
  cases exponent.upper <;> exact ⟨by rintro b ⟨⟩; rfl, by rintro ⟨⟩⟩

/-- What follows the whole digits of a number ends them. -/
theorem endsDigits_fraction (number : WrittenNumber) {rest : Bytes} (ends : EndsNumber rest) :
    EndsDigits (encode (WrittenNumber.fractionChars number.fraction) ++
      (encode (WrittenNumber.exponentChars number.exponent) ++ rest)) := by
  cases number.fraction with
  | some digits => rintro b ⟨⟩; rfl
  | none =>
      cases number.exponent with
      | some e => exact (endsDigits_letter e rest).1
      | none => exact ends.endsDigits

theorem endsDigits_exponent (number : WrittenNumber) {rest : Bytes} (ends : EndsNumber rest) :
    EndsDigits (encode (WrittenNumber.exponentChars number.exponent) ++ rest) ∧
      (encode (WrittenNumber.exponentChars number.exponent) ++ rest).head? ≠ some (ascii '.') := by
  cases number.exponent with
  | some e => exact endsDigits_letter e rest
  | none =>
      exact ⟨ends.endsDigits, fun point => (ends (ascii '.') point).2.1 rfl⟩

/-- A written number does not begin with a minus sign unless it is negative. -/
theorem head?_whole_ne_minus (number : WrittenNumber) (rest : Bytes) :
    ((encode number.whole.chars ++ rest).head? == some (ascii '-')) = false := by
  obtain ⟨c, more, -, isDigit, bytes⟩ := exists_cons_digits number.whole
  rw [bytes]
  simpa using ascii_digit_ne isDigit rfl

/-- What the reader makes of a number, by the bytes of its parts. -/
theorem WrittenNumber.numeral_eq (number : WrittenNumber) :
    let fraction := number.fraction.map fun digits => encode digits.chars
    let exponent := number.exponent.map WrittenExponent.value
    number.numeral =
      { negative := number.negative
        isWhole := fraction.isNone && exponent.isNone
        digits := digitsValue (encode number.whole.chars ++ fraction.getD [])
        scale := exponent.getD 0 - (fraction.getD []).length } := by
  have fractionBytes : (number.fraction.map fun digits => encode digits.chars).getD [] =
      encode number.fractionDigits := by
    rw [fractionDigits]
    cases number.fraction <;> rfl
  have exponentRead : (number.exponent.map WrittenExponent.value).getD 0 =
      exponentValue number.exponent := by
    cases number.exponent <;> rfl
  have allDigits : ∀ c ∈ number.whole.chars ++ number.fractionDigits, c.isDigit = true := by
    intro c mem
    rcases List.mem_append.1 mem with mem | mem
    · exact number.whole.isDigit c mem
    · exact number.isDigit_fractionDigits c mem
  have fractionLength : (encode number.fractionDigits).length = number.fractionDigits.length := by
    rw [encode_digits number.isDigit_fractionDigits, List.length_map]
  dsimp only
  rw [fractionBytes, exponentRead, ← encode_append, digitsValue_encode allDigits, fractionLength,
    Option.isNone_map, Option.isNone_map, numeral]

theorem readNumeral_encode (number : WrittenNumber) {rest : Bytes} (ends : EndsNumber rest) :
    readNumeral (encode number.chars ++ rest) = .ok (number.numeral, rest) := by
  have sign : ((encode number.chars ++ rest).head? == some (ascii '-')) = number.negative := by
    cases negative : number.negative with
    | true => rw [WrittenNumber.chars, negative]; rfl
    | false =>
        rw [WrittenNumber.chars, negative, if_neg Bool.false_ne_true, List.nil_append, encode_append,
          List.append_assoc]
        exact head?_whole_ne_minus number _
  have behindSign : (if number.negative then (encode number.chars ++ rest).tail
      else encode number.chars ++ rest) = encode number.whole.chars ++
        (encode (WrittenNumber.fractionChars number.fraction) ++
          (encode (WrittenNumber.exponentChars number.exponent) ++ rest)) := by
    cases negative : number.negative with
    | true =>
        rw [WrittenNumber.chars, negative]
        simp only [if_true, encode_append, List.append_assoc]
        rfl
    | false =>
        rw [WrittenNumber.chars, negative]
        simp only [Bool.false_eq_true, if_false, List.nil_append, encode_append, List.append_assoc]
  obtain ⟨endsFraction, noPoint⟩ := endsDigits_exponent number ends
  rw [readNumeral]
  simp only [sign, behindSign, readWhole_encode number (endsDigits_fraction number ends),
    readFraction_encode number.fraction endsFraction noPoint,
    readExponent_encode number.exponent ends, bind, Except.bind]
  rw [number.numeral_eq]

end Folio.Json
