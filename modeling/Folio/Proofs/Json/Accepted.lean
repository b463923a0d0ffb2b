import Folio.Proofs.Except
import Folio.Proofs.Json.Literal

/-!
# What readers accept

A reader that succeeds on the bytes of a text has taken a front of the text that is
written by the rules: blank space, a word, a number or a literal.  What it leaves is the
bytes of the characters behind, since everything that a reader looks at is ASCII.
-/

namespace Folio.Json

open Text

/-! ## Blank space and words -/

def Blank (chars : List Char) : Prop := ∀ c ∈ chars, c ∈ [' ', '\t', '\n', '\r']

theorem ascii_of_isBlank {b : UInt8} (blank : isBlank b = true) : b < 0x80 := by
  simp only [isBlank, Bool.or_eq_true, beq_iff_eq] at blank
  rcases blank with ((rfl | rfl) | rfl) | rfl <;> decide

theorem isBlank_ascii {c : Char} (small : c.toNat < 0x80) :
    isBlank (ascii c) = true ↔ c ∈ [' ', '\t', '\n', '\r'] := by
  have same : ∀ d : Char, d.toNat < 0x80 → (ascii c = ascii d ↔ c = d) := fun d other =>
    toUInt8_inj small other
  simp only [isBlank, Bool.or_eq_true, beq_iff_eq, same ' ' (by decide), same '\t' (by decide),
    same '\n' (by decide), same '\r' (by decide), List.mem_cons, List.not_mem_nil, or_false, or_assoc]

theorem ascii_of_blank {chars : List Char} (blank : Blank chars) : ∀ c ∈ chars, c.toNat < 0x80 := by
  have small : ∀ c ∈ [' ', '\t', '\n', '\r'], c.toNat < 0x80 := by simp
  exact fun c mem => small c (blank c mem)

/-- Blank space is left out in front of what follows. -/
theorem skipBlank_append {front : List Char} (blank : Blank front) (bytes : Bytes) :
    skipBlank (encode front ++ bytes) = skipBlank bytes := by
  have ascii := ascii_of_blank blank
  refine List.dropWhile_append_of_pos fun b mem => ?_
  rw [encode_of_ascii ascii] at mem
  obtain ⟨c, inside, rfl⟩ := List.mem_map.1 mem
  exact (isBlank_ascii (ascii c inside)).2 (blank c inside)

/-- What is left out in front of a text is blank space. -/
theorem exists_skipBlank (chars : List Char) :
    ∃ front back, chars = front ++ back ∧ Blank front ∧ skipBlank (encode chars) = encode back := by
  obtain ⟨front, back, cut, all, -, dropped⟩ := exists_span_encode (fun _ => ascii_of_isBlank) chars
  exact ⟨front, back, cut, fun c mem => (isBlank_ascii (all c mem).1).1 (all c mem).2, dropped⟩

theorem of_readWord {word chars : List Char} (ascii : ∀ c ∈ word, c.toNat < 0x80) {rest : Bytes}
    (read : readWord word (encode chars) = .ok rest) :
    ∃ back, chars = word ++ back ∧ rest = encode back := by
  induction word generalizing chars with
  | nil =>
      cases read
      exact ⟨chars, rfl, rfl⟩
  | cons c word ih =>
      obtain ⟨here, later⟩ := List.forall_mem_cons.1 ascii
      cases bytes : encode chars with
      | nil =>
          rw [bytes] at read
          cases read
      | cons b behind =>
          rw [bytes, readWord] at read
          split at read
          · rename_i same
            rw [same] at bytes
            obtain ⟨more, rfl, rfl⟩ := eq_cons_of_encode_eq here bytes
            obtain ⟨back, rfl, left⟩ := ih later read
            exact ⟨back, rfl, left⟩
          · cases read

/-! ## Numbers -/

theorem ascii_of_isDigit {b : UInt8} (digit : isDigit b = true) : b < 0x80 := by
  simp only [isDigit, Bool.and_eq_true, decide_eq_true_eq] at digit
  exact UInt8.lt_of_le_of_lt digit.2 (by decide)

theorem isDigit_of_ascii {c : Char} (small : c.toNat < 0x80) (digit : isDigit (ascii c) = true) :
    c.isDigit = true := by
  simp only [isDigit, Bool.and_eq_true, decide_eq_true_eq] at digit
  rw [toUInt8_le_iff (by decide) small, toUInt8_le_iff small (by decide)] at digit
  simp only [Char.isDigit, Bool.and_eq_true, decide_eq_true_eq]
  exact digit

theorem of_readDigits {chars : List Char} {digits rest : Bytes}
    (read : readDigits (encode chars) = .ok (digits, rest)) :
    ∃ (written : Digits) (back : List Char), chars = written.chars ++ back ∧
      digits = encode written.chars ∧ rest = encode back := by
  obtain ⟨front, back, rfl, all, taken, dropped⟩ :=
    exists_span_encode (fun _ => ascii_of_isDigit) chars
  rw [readDigits, taken, dropped] at read
  split at read
  · cases read
  · rename_i some
    cases read
    have nonempty : front ≠ [] := fun none => some (by rw [none]; rfl)
    exact ⟨⟨front, nonempty, fun c mem => isDigit_of_ascii (all c mem).1 (all c mem).2⟩, back, rfl,
      rfl, rfl⟩

theorem of_readWhole {chars : List Char} {digits rest : Bytes}
    (read : readWhole (encode chars) = .ok (digits, rest)) :
    ∃ (written : Digits) (back : List Char), chars = written.chars ++ back ∧
      (written.chars.head? = some '0' → written.chars.length = 1) ∧
      digits = encode written.chars ∧ rest = encode back := by
  obtain ⟨⟨digits', rest'⟩, first, read⟩ := bind_eq_ok_iff.1 read
  obtain ⟨written, back, rfl, rfl, rfl⟩ := of_readDigits first
  dsimp only at read
  split at read
  · cases read
  · rename_i single
    cases read
    refine ⟨written, back, rfl, fun zero => ?_, rfl, rfl⟩
    have positive := List.length_pos_iff.2 written.nonempty
    rw [encode_digits written.isDigit, List.head?_map, zero, List.length_map] at single
    have := not_and.1 single rfl
    omega

/-- A fraction is absent, or a point with digits behind it. -/
theorem readFraction_cases {bytes rest : Bytes} {digits : Option Bytes}
    (read : readFraction bytes = .ok (digits, rest)) :
    digits = none ∧ rest = bytes ∨
      ∃ behind found, bytes = ascii '.' :: behind ∧ readDigits behind = .ok (found, rest) ∧
        digits = some found := by
  unfold readFraction at read
  split at read
  · split at read
    · rename_i behind point
      obtain ⟨⟨found, rest'⟩, digits, ⟨⟩⟩ := bind_eq_ok_iff.1 read
      exact .inr ⟨behind, found, by rw [point], digits, rfl⟩
    · cases read
      exact .inl ⟨rfl, rfl⟩
  · cases read
    exact .inl ⟨rfl, rfl⟩

theorem of_readFraction {chars : List Char} {digits : Option Bytes} {rest : Bytes}
    (read : readFraction (encode chars) = .ok (digits, rest)) :
    ∃ (written : Option Digits) (back : List Char),
      chars = WrittenNumber.fractionChars written ++ back ∧
      digits = written.map (fun written => encode written.chars) ∧ rest = encode back := by
  obtain ⟨rfl, rfl⟩ | ⟨behind, found, bytes, inner, rfl⟩ := readFraction_cases read
  · exact ⟨none, chars, rfl, rfl, rfl⟩
  · obtain ⟨more, rfl, rfl⟩ := eq_cons_of_encode_eq (by decide) bytes
    obtain ⟨written, back, rfl, rfl, rfl⟩ := of_readDigits inner
    exact ⟨some written, back, rfl, rfl, rfl⟩

theorem of_readSign (chars : List Char) :
    ∃ sign back, chars = WrittenExponent.signChars sign ++ back ∧
      readSign (encode chars) = (decide (sign = some true), encode back) := by
  cases bytes : encode chars with
  | nil => exact ⟨none, chars, rfl, by rw [bytes]; rfl⟩
  | cons b behind =>
      rw [readSign]
      split
      · rename_i minus
        rw [minus] at bytes
        obtain ⟨back, rfl, rfl⟩ := eq_cons_of_encode_eq (by decide) bytes
        exact ⟨some true, back, rfl, rfl⟩
      · split
        · rename_i plus
          rw [plus] at bytes
          obtain ⟨back, rfl, rfl⟩ := eq_cons_of_encode_eq (by decide) bytes
          exact ⟨some false, back, rfl, rfl⟩
        · exact ⟨none, chars, rfl, by rw [bytes]; rfl⟩

/-- An exponent is absent, or a letter with a sign and digits behind it. -/
theorem readExponent_cases {bytes rest : Bytes} {value : Option Int}
    (read : readExponent bytes = .ok (value, rest)) :
    value = none ∧ rest = bytes ∨
      ∃ letter behind found, bytes = letter :: behind ∧ (letter = ascii 'e' ∨ letter = ascii 'E') ∧
        readDigits (readSign behind).2 = .ok (found, rest) ∧
        value = some (if (readSign behind).1 then -(digitsValue found : Int)
          else digitsValue found) := by
  unfold readExponent at read
  split at read
  · split at read
    · rename_i letter behind isLetter
      obtain ⟨⟨found, rest'⟩, digits, ⟨⟩⟩ := bind_eq_ok_iff.1 read
      exact .inr ⟨letter, behind, found, rfl, isLetter, digits, rfl⟩
    · cases read
      exact .inl ⟨rfl, rfl⟩
  · cases read
    exact .inl ⟨rfl, rfl⟩

theorem of_readExponent {chars : List Char} {value : Option Int} {rest : Bytes}
    (read : readExponent (encode chars) = .ok (value, rest)) :
    ∃ (written : Option WrittenExponent) (back : List Char),
      chars = WrittenNumber.exponentChars written ++ back ∧
      value = written.map WrittenExponent.value ∧ rest = encode back := by
  obtain ⟨rfl, rfl⟩ | ⟨letter, behind, found, bytes, isLetter, inner, rfl⟩ := readExponent_cases read
  · exact ⟨none, chars, rfl, rfl, rfl⟩
  · obtain ⟨upper, more, rfl, rfl⟩ : ∃ (upper : Bool) (more : List Char),
        chars = (if upper then 'E' else 'e') :: more ∧ behind = encode more := by
      obtain rfl | rfl := isLetter
      · exact ⟨false, eq_cons_of_encode_eq (by decide) bytes⟩
      · exact ⟨true, eq_cons_of_encode_eq (by decide) bytes⟩
    obtain ⟨sign, signed, rfl, signRead⟩ := of_readSign more
    rw [signRead] at inner ⊢
    obtain ⟨digits, back, rfl, rfl, rfl⟩ := of_readDigits inner
    refine ⟨some ⟨upper, sign, digits⟩, back, ?_, ?_, rfl⟩
    · rw [WrittenNumber.exponentChars, WrittenExponent.chars, List.cons_append, List.append_assoc]
    · rw [digitsValue_encode digits.isDigit, Option.map_some, WrittenExponent.value]
      simp only [decide_eq_true_eq]

/-- The numeral that was read is that of the number that is written. -/
theorem of_readNumeral {chars : List Char} {numeral : Numeral} {rest : Bytes}
    (read : readNumeral (encode chars) = .ok (numeral, rest)) :
    ∃ (number : WrittenNumber) (back : List Char), chars = number.chars ++ back ∧
      numeral = number.numeral ∧ rest = encode back := by
  obtain ⟨negative, unsigned, rfl, isNegative, behind⟩ : ∃ (negative : Bool) (unsigned : List Char),
      chars = (if negative then ['-'] else []) ++ unsigned ∧
      ((encode chars).head? == some (ascii '-')) = negative ∧
      (if negative then (encode chars).tail else encode chars) = encode unsigned := by
    cases negative : (encode chars).head? == some (ascii '-') with
    | false => exact ⟨false, chars, rfl, rfl, rfl⟩
    | true =>
        obtain ⟨more, bytes⟩ := List.head?_eq_some_iff.1 (eq_of_beq negative)
        obtain ⟨unsigned, rfl, rfl⟩ := eq_cons_of_encode_eq (by decide) bytes
        exact ⟨true, unsigned, rfl, rfl, by rw [bytes]; rfl⟩
  rw [readNumeral, isNegative, behind] at read
  obtain ⟨⟨whole, afterWhole⟩, wholeRead, read⟩ := bind_eq_ok_iff.1 read
  obtain ⟨⟨fraction, afterFraction⟩, fractionRead, read⟩ := bind_eq_ok_iff.1 read
  obtain ⟨⟨exponent, afterExponent⟩, exponentRead, ⟨⟩⟩ := bind_eq_ok_iff.1 read
  obtain ⟨whole, afterWhole, rfl, noLeadingZero, rfl, rfl⟩ := of_readWhole wholeRead
  obtain ⟨fraction, afterFraction, rfl, rfl, rfl⟩ := of_readFraction fractionRead
  obtain ⟨exponent, back, rfl, rfl, rfl⟩ := of_readExponent exponentRead
  refine ⟨⟨negative, whole, noLeadingZero, fraction, exponent⟩, back, ?_, ?_, rfl⟩
  · simp only [WrittenNumber.chars, List.append_assoc]
  · exact (WrittenNumber.numeral_eq ⟨negative, whole, noLeadingZero, fraction, exponent⟩).symm

/-! ## Literals -/

theorem prepend_eq_ok_iff {bytes content rest : Bytes} {reading : Except Fault (Bytes × Bytes)} :
    prepend bytes reading = .ok (content, rest) ↔
      ∃ tail, reading = .ok (tail, rest) ∧ content = bytes ++ tail := by
  constructor
  · intro read
    obtain ⟨⟨tail, rest'⟩, inner, ⟨⟩⟩ := map_eq_ok_iff.1 read
    exact ⟨tail, inner, rfl⟩
  · rintro ⟨tail, rfl, rfl⟩
    rfl

/-- Where no quote ends the literal, a byte is read by a step. -/
theorem exists_step_of_readStringBytes {mode : StringMode} (inside : ∀ b, mode.endsAt b = false)
    {bytes content rest : Bytes} (read : readStringBytes mode bytes = .ok (content, rest)) :
    ∃ b behind out next tail, bytes = b :: behind ∧ stringStep mode b = .ok (out, next) ∧
      readStringBytes next behind = .ok (tail, rest) ∧ content = out ++ tail := by
  cases bytes with
  | nil => cases read
  | cons b behind =>
      rw [readStringBytes, inside b, if_neg Bool.false_ne_true] at read
      cases step : stringStep mode b with
      | error fault =>
          rw [step] at read
          cases read
      | ok result =>
          obtain ⟨out, next⟩ := result
          rw [step] at read
          obtain ⟨tail, later, same⟩ := prepend_eq_ok_iff.1 read
          exact ⟨b, behind, out, next, tail, rfl, step, later, same⟩

theorem exists_cons_of_hexValue? {chars : List Char} {b : UInt8} {rest : Bytes} {n : Nat}
    (digit : hexValue? b = some n) (bytes : encode chars = b :: rest) :
    ∃ c more, chars = c :: more ∧ HexDigit c n ∧ rest = encode more := by
  have small : b < 0x80 := by
    rw [UInt8.lt_iff_toNat_lt]
    simp only [hexValue?] at digit
    grind
  obtain ⟨c, more, rfl, ascii, rfl, left⟩ := exists_cons_of_encode_eq small bytes
  exact ⟨c, more, rfl, (hexValue?_ascii ascii n).1 digit, left⟩

/-- Four digits are read before the unit that they write is looked at. -/
theorem of_readStringBytes_unit {leading : Option Nat} {chars : List Char} {content rest : Bytes}
    (read : readStringBytes (.unit leading []) (encode chars) = .ok (content, rest)) :
    ∃ digits back code out next tail, chars = digits ++ back ∧ UnitText digits code ∧
      readUnit leading code = .ok (out, next) ∧
      readStringBytes next (encode back) = .ok (tail, rest) ∧ content = out ++ tail := by
  have inside : ∀ (digits : Bytes) (b : UInt8), (StringMode.unit leading digits).endsAt b = false :=
    fun _ _ => rfl
  obtain ⟨a, behindA, _, _, _, bytes, ⟨⟩, readB, rfl⟩ := exists_step_of_readStringBytes (inside _) read
  obtain ⟨b, behindB, _, _, _, rfl, ⟨⟩, readC, rfl⟩ := exists_step_of_readStringBytes (inside _) readB
  obtain ⟨c, behindC, _, _, _, rfl, ⟨⟩, readD, rfl⟩ := exists_step_of_readStringBytes (inside _) readC
  obtain ⟨d, behind, out, next, tail, rfl, step, later, rfl⟩ :=
    exists_step_of_readStringBytes (inside _) readD
  change stringStep (.unit leading [a, b, c]) d = .ok (out, next) at step
  rw [stringStep] at step
  cases unit : hexUnit? a b c d with
  | none =>
      rw [unit] at step
      cases step
  | some code =>
      rw [unit] at step
      obtain ⟨w, x, y, z, first, second, third, fourth, rfl⟩ := hexUnit?_eq_some_iff.1 unit
      obtain ⟨c₁, more, rfl, digit₁, bytes⟩ := exists_cons_of_hexValue? first bytes
      obtain ⟨c₂, more, rfl, digit₂, bytes⟩ := exists_cons_of_hexValue? second bytes.symm
      obtain ⟨c₃, more, rfl, digit₃, bytes⟩ := exists_cons_of_hexValue? third bytes.symm
      obtain ⟨c₄, back, rfl, digit₄, rfl⟩ := exists_cons_of_hexValue? fourth bytes.symm
      exact ⟨[c₁, c₂, c₃, c₄], back, _, out, next, tail, rfl, .digits digit₁ digit₂ digit₃ digit₄,
        step, later, rfl⟩

/-- Behind the first half of a pair an escape with the second half has to follow. -/
theorem of_readStringBytes_half {leading : Nat} {chars : List Char} {content rest : Bytes}
    (read : readStringBytes (.half leading) (encode chars) = .ok (content, rest)) :
    ∃ digits back trailing tail, chars = '\\' :: 'u' :: (digits ++ back) ∧
      UnitText digits trailing ∧ (0xDC00 ≤ trailing ∧ trailing ≤ 0xDFFF) ∧
      readStringBytes .plain (encode back) = .ok (tail, rest) ∧
      content = charBytes (pairCode leading trailing) ++ tail := by
  obtain ⟨slash, behind, _, _, _, bytes, step, more, rfl⟩ :=
    exists_step_of_readStringBytes (fun _ => rfl) read
  rw [stringStep] at step
  split at step
  · rename_i isSlash
    cases step
    rw [isSlash] at bytes
    obtain ⟨chars, rfl, rfl⟩ := eq_cons_of_encode_eq (by decide) bytes
    obtain ⟨mark, behind, _, _, _, bytes, step, more, rfl⟩ :=
      exists_step_of_readStringBytes (fun _ => rfl) more
    rw [stringStep] at step
    split at step
    · rename_i isMark
      cases step
      rw [isMark] at bytes
      obtain ⟨chars, rfl, rfl⟩ := eq_cons_of_encode_eq (by decide) bytes
      obtain ⟨digits, back, trailing, out, next, tail, rfl, written, unit, later, rfl⟩ :=
        of_readStringBytes_unit more
      rw [readUnit] at unit
      split at unit
      · rename_i isTrail
        obtain ⟨rfl, rfl⟩ := Prod.mk.inj (Except.ok.inj unit)
        simp only [isTrailing, Bool.and_eq_true, decide_eq_true_eq] at isTrail
        exact ⟨digits, back, trailing, tail, rfl, written, isTrail, later,
          by rw [List.nil_append, List.nil_append]⟩
      · cases unit
    · cases step
  · cases step

theorem mem_shortEscapes {b byte : UInt8} (short : shortEscape? b = some byte) :
    ∃ mark c, (mark, c) ∈ shortEscapes ∧ mark.toNat < 0x80 ∧ b = ascii mark ∧
      String.utf8EncodeChar c = [byte] := by
  have small : ∀ escape ∈ shortEscapes, escape.1.toNat < 0x80 ∧ escape.2.toNat < 0x80 := by
    simp [shortEscapes]
  have known : ∀ mark c : Char, (mark, c) ∈ shortEscapes → b = ascii mark → byte = ascii c →
      ∃ mark c, (mark, c) ∈ shortEscapes ∧ mark.toNat < 0x80 ∧ b = ascii mark ∧
        String.utf8EncodeChar c = [byte] := fun mark c mem first second =>
    ⟨mark, c, mem, (small _ mem).1, first, by rw [utf8EncodeChar_of_ascii (small _ mem).2, second]⟩
  unfold shortEscape? at short
  split at short
  · rename_i itself
    cases short
    rcases itself with same | same | same
    · exact known '"' '"' (by decide) same same
    · exact known '\\' '\\' (by decide) same same
    · exact known '/' '/' (by decide) same same
  split at short
  · cases short
    exact known 'b' '\x08' (by decide) ‹_› rfl
  split at short
  · cases short
    exact known 'f' '\x0c' (by decide) ‹_› rfl
  split at short
  · cases short
    exact known 'n' '\n' (by decide) ‹_› rfl
  split at short
  · cases short
    exact known 'r' '\r' (by decide) ‹_› rfl
  split at short
  · cases short
    exact known 't' '\t' (by decide) ‹_› rfl
  · cases short

/-- Behind a backslash the rest of an escape has to follow. -/
theorem of_readStringBytes_escaped {chars : List Char} {content rest : Bytes}
    (read : readStringBytes .escaped (encode chars) = .ok (content, rest)) :
    ∃ escape c back tail, chars = escape ++ back ∧ LiteralItem ('\\' :: escape) c ∧
      readStringBytes .plain (encode back) = .ok (tail, rest) ∧
      content = String.utf8EncodeChar c ++ tail := by
  obtain ⟨mark, behind, out, next, tail, bytes, step, more, rfl⟩ :=
    exists_step_of_readStringBytes (fun _ => rfl) read
  rw [stringStep] at step
  split at step
  · rename_i isMark
    cases step
    rw [isMark] at bytes
    obtain ⟨chars, rfl, rfl⟩ := eq_cons_of_encode_eq (by decide) bytes
    obtain ⟨digits, back, code, out, next, tail, rfl, written, unit, later, rfl⟩ :=
      of_readStringBytes_unit more
    rw [readUnit] at unit
    split at unit
    · cases unit
    · rename_i noTrailing
      simp only [isTrailing, Bool.and_eq_true, decide_eq_true_eq] at noTrailing
      split at unit
      · rename_i leads
        cases unit
        simp only [isLeading, Bool.and_eq_true, decide_eq_true_eq] at leads
        obtain ⟨second, back, trailing, tail, rfl, writtenToo, trails, later, same⟩ :=
          of_readStringBytes_half later
        refine ⟨'u' :: (digits ++ '\\' :: 'u' :: second), _, back, tail, ?_,
          .pair written writtenToo leads trails, later, ?_⟩
        · simp
        · rw [List.nil_append, List.nil_append, same]
          rfl
      · rename_i noLeading
        simp only [isLeading, Bool.and_eq_true, decide_eq_true_eq] at noLeading
        cases unit
        exact ⟨'u' :: digits, _, back, tail, rfl, .unit written (by omega), later, rfl⟩
  · split at step
    · rename_i byte short
      cases step
      obtain ⟨mark, c, mem, small, rfl, char⟩ := mem_shortEscapes short
      obtain ⟨back, rfl, rfl⟩ := eq_cons_of_encode_eq small bytes
      exact ⟨[mark], c, back, tail, rfl, .short mem, more, by rw [char]⟩
    · cases step

theorem readStringBytes_control {c : Char} (control : c.toNat < 0x20) (rest : Bytes) :
    readStringBytes .plain (ascii c :: rest) = .error .malformed := by
  have other : ∀ d : Char, 0x20 ≤ d.toNat → d.toNat < 0x80 → ascii c ≠ ascii d := by
    intro d visible small same
    rw [(toUInt8_inj (by omega) small).1 same] at control
    omega
  have inside : StringMode.plain.endsAt (ascii c) = false :=
    beq_eq_false_iff_ne.2 (other '"' (by decide) (by decide))
  have low : ascii c < 0x20 := by
    rw [UInt8.lt_iff_toNat_lt, toNat_toUInt8 (by omega)]
    exact control
  have step : stringStep .plain (ascii c) = .error .malformed := by
    rw [stringStep, if_neg (other '\\' (by decide) (by decide)), if_pos low]
  rw [readStringBytes, inside, step]
  rfl

/-- What is read up to a quote is the inside of a literal. -/
theorem of_readStringBytes {chars : List Char} {content rest : Bytes}
    (read : readStringBytes .plain (encode chars) = .ok (content, rest)) :
    ∃ body text back, chars = body ++ '"' :: back ∧ LiteralText body text ∧
      content = encode text ∧ rest = encode back := by
  induction length : chars.length using Nat.strongRecOn generalizing chars content with
  | ind n ih =>
      -- An item in front of what is read as the inside of a literal makes it a longer one.
      have behind : ∀ (item more : List Char) (c : Char) (tail : Bytes), LiteralItem item c →
          chars = item ++ more →
          readStringBytes .plain (encode more) = .ok (tail, rest) →
          content = String.utf8EncodeChar c ++ tail →
          ∃ body text back, chars = body ++ '"' :: back ∧ LiteralText body text ∧
            content = encode text ∧ rest = encode back := by
        rintro item more c tail written rfl later rfl
        have shorter : more.length < n := by
          have := written.length_pos
          rw [← length, List.length_append]
          omega
        obtain ⟨body, text, back, rfl, inside, rfl, rfl⟩ := ih more.length shorter later rfl
        exact ⟨item ++ body, c :: text, back, (List.append_assoc ..).symm, .cons written inside, rfl,
          rfl⟩
      cases chars with
      | nil => cases read
      | cons c more =>
          by_cases quote : c = '"'
          · subst quote
            rw [encode_cons_of_ascii (by decide)] at read
            cases read
            exact ⟨[], [], more, rfl, .nil, rfl, rfl⟩
          · by_cases slash : c = '\\'
            · subst slash
              rw [encode_cons_of_ascii (by decide), readStringBytes_cons rfl rfl, prepend_nil] at read
              obtain ⟨escape, c, back, tail, rfl, written, later, rfl⟩ :=
                of_readStringBytes_escaped read
              exact behind ('\\' :: escape) back c tail written rfl later rfl
            · by_cases control : c.toNat < 0x20
              · rw [encode_cons_of_ascii (by omega), readStringBytes_control control] at read
                cases read
              · have ordinary := isOrdinary_of_mem quote slash (Nat.not_lt.1 control)
                rw [encode_cons, readStringBytes_ordinary ordinary] at read
                obtain ⟨tail, later, same⟩ := prepend_eq_ok_iff.1 read
                exact behind [c] more c tail (.plain quote slash (Nat.not_lt.1 control)) rfl
                  later same

/-- A string that was read is written as a literal. -/
theorem of_readString {chars : List Char} {text : String} {rest : Bytes}
    (read : readString (encode chars) = .ok (text, rest)) :
    ∃ body back, chars = body ++ '"' :: back ∧ LiteralText body text.toList ∧
      rest = encode back := by
  obtain ⟨⟨content, rest'⟩, inner, read⟩ := bind_eq_ok_iff.1 read
  obtain ⟨body, letters, back, rfl, written, rfl, rfl⟩ := of_readStringBytes inner
  dsimp only at read
  rw [ofUtf8?_encode] at read
  cases read
  refine ⟨body, back, rfl, ?_, rfl⟩
  rw [String.toList_ofList]
  exact written

end Folio.Json
