import Folio.Proofs.Json.Numeral

/-!
# Strings read back

Inside a literal most characters stand for themselves, and some are written by an escape:
a backslash and a mark, or the number of a unit of sixteen bits, or a pair of such units.
However a text is written, its literal reads as the text, up to the closing quote.
-/

namespace Folio.Json

open Text

/-! ## Literals -/

/-- Whether a character is a hexadecimal digit, in either case, and of which number. -/
def HexDigit (c : Char) (n : Nat) : Prop := n < 16 ∧ c.toLower = Nat.digitChar n

inductive UnitText : List Char → Nat → Prop where
  | digits {a b c d : Char} {w x y z : Nat} (first : HexDigit a w) (second : HexDigit b x)
      (third : HexDigit c y) (fourth : HexDigit d z) :
      UnitText [a, b, c, d] (4096 * w + 256 * x + 16 * y + z)

def shortEscapes : List (Char × Char) :=
  [('"', '"'), ('\\', '\\'), ('/', '/'), ('b', '\x08'), ('f', '\x0c'), ('n', '\n'), ('r', '\r'),
    ('t', '\t')]

inductive LiteralItem : List Char → Char → Prop where
  | plain {c : Char} (noQuote : c ≠ '"') (noBackslash : c ≠ '\\') (noControl : 0x20 ≤ c.toNat) :
      LiteralItem [c] c
  | short {mark c : Char} (escape : (mark, c) ∈ shortEscapes) : LiteralItem ['\\', mark] c
  /-- Halves of pairs are no characters. -/
  | unit {digits : List Char} {code : Nat} (written : UnitText digits code)
      (whole : ¬(0xD800 ≤ code ∧ code ≤ 0xDFFF)) :
      LiteralItem ('\\' :: 'u' :: digits) (Char.ofNat code)
  | pair {front back : List Char} {leading trailing : Nat} (first : UnitText front leading)
      (second : UnitText back trailing) (isLeading : 0xD800 ≤ leading ∧ leading ≤ 0xDBFF)
      (isTrailing : 0xDC00 ≤ trailing ∧ trailing ≤ 0xDFFF) :
      LiteralItem ('\\' :: 'u' :: (front ++ '\\' :: 'u' :: back))
        (Char.ofNat (0x10000 + (leading - 0xD800) * 0x400 + (trailing - 0xDC00)))

inductive LiteralText : List Char → List Char → Prop where
  | nil : LiteralText [] []
  | cons {item rest chars : List Char} {c : Char} (first : LiteralItem item c)
      (more : LiteralText rest chars) : LiteralText (item ++ rest) (c :: chars)

theorem LiteralItem.length_pos {item : List Char} {c : Char} (written : LiteralItem item c) :
    0 < item.length := by
  cases written <;> exact Nat.succ_pos _

/-- A text is no longer than what is written for it. -/
theorem LiteralText.length_le {body chars : List Char} (written : LiteralText body chars) :
    chars.length ≤ body.length := by
  induction written with
  | nil => exact Nat.le_refl 0
  | cons first more ih =>
      have item := first.length_pos
      rw [List.length_cons, List.length_append]
      omega

/-! ## Reading bytes of a literal -/

theorem prepend_prepend (front back : Bytes) (reading : Except Fault (Bytes × Bytes)) :
    prepend front (prepend back reading) = prepend (front ++ back) reading := by
  cases reading with
  | error fault => rfl
  | ok result => simp [prepend, Except.map]

@[simp] theorem prepend_nil (reading : Except Fault (Bytes × Bytes)) :
    prepend [] reading = reading := by
  cases reading <;> rfl

/-- A byte that does not end the string is read by one step. -/
theorem readStringBytes_cons {mode next : StringMode} {b : UInt8} {bytes : Bytes}
    (inside : mode.endsAt b = false) (step : stringStep mode b = .ok (bytes, next)) (rest : Bytes) :
    readStringBytes mode (b :: rest) = prepend bytes (readStringBytes next rest) := by
  rw [readStringBytes, inside, step]
  simp

/-- Whether a byte stands for itself inside a string. -/
def IsOrdinary (b : UInt8) : Prop := b ≠ ascii '"' ∧ b ≠ ascii '\\' ∧ 0x20 ≤ b

theorem readStringBytes_ordinary {bytes : Bytes} (ordinary : ∀ b ∈ bytes, IsOrdinary b)
    (rest : Bytes) :
    readStringBytes .plain (bytes ++ rest) = prepend bytes (readStringBytes .plain rest) := by
  induction bytes with
  | nil => simp
  | cons b more ih =>
      obtain ⟨noQuote, noBackslash, noControl⟩ := ordinary b List.mem_cons_self
      have inside : StringMode.plain.endsAt b = false := by
        simpa [StringMode.endsAt] using noQuote
      have step : stringStep .plain b = .ok ([b], .plain) := by
        rw [stringStep, if_neg noBackslash, if_neg (UInt8.not_lt.2 noControl)]
      rw [List.cons_append, readStringBytes_cons inside step,
        ih fun d mem => ordinary d (List.mem_cons_of_mem b mem), prepend_prepend,
        List.singleton_append]

theorem isOrdinary_of_mem {c : Char} (noQuote : c ≠ '"') (noBackslash : c ≠ '\\')
    (noControl : 0x20 ≤ c.toNat) : ∀ b ∈ String.utf8EncodeChar c, IsOrdinary b := by
  intro b mem
  by_cases small : c.toNat < 0x80
  · rw [utf8EncodeChar_of_ascii small, List.mem_singleton] at mem
    subst mem
    have code : c.toUInt8.toNat = c.toNat := toNat_toUInt8 (by omega)
    have distinct : ∀ d : Char, d.toNat < 0x100 → c ≠ d → c.toUInt8 ≠ ascii d := by
      intro d bound ne same
      have codes := congrArg UInt8.toNat same
      rw [code, toNat_toUInt8 bound] at codes
      exact ne (Char.toNat_inj.1 codes)
    refine ⟨distinct '"' (by decide) noQuote, distinct '\\' (by decide) noBackslash, ?_⟩
    rw [UInt8.le_iff_toNat_le, code]
    exact noControl
  · have high := le_of_mem_utf8EncodeChar (Nat.not_lt.1 small) mem
    rw [UInt8.le_iff_toNat_le] at high
    refine ⟨?_, ?_, ?_⟩
    · rintro rfl
      exact absurd high (by decide)
    · rintro rfl
      exact absurd high (by decide)
    · rw [UInt8.le_iff_toNat_le]
      exact Nat.le_trans (by decide) high

/-- Short escapes are two bytes. -/
theorem readStringBytes_short {b byte : UInt8} (notUnit : b ≠ ascii 'u')
    (short : shortEscape? b = some byte) (rest : Bytes) :
    readStringBytes .plain (ascii '\\' :: b :: rest) =
      prepend [byte] (readStringBytes .plain rest) := by
  have step : stringStep .escaped b = .ok ([byte], .plain) := by
    rw [stringStep, if_neg notUnit, short]
  rw [readStringBytes_cons rfl rfl, prepend_nil, readStringBytes_cons rfl step]

/-! ## Reading escapes -/

theorem toNat_lt_of_hexDigit {c : Char} {n : Nat} (digit : HexDigit c n) : c.toNat < 0x80 := by
  have small : ∀ k < 16, (Nat.digitChar k).toNat < 0x80 := by decide
  have lower := small n digit.1
  rw [← digit.2] at lower
  delta Char.toLower at lower
  split at lower
  · rename_i upper
    exact Nat.lt_of_le_of_lt upper.2 (by decide)
  · exact lower

/-- A character of ASCII is a hexadecimal digit iff its byte is. -/
theorem hexValue?_ascii {c : Char} (small : c.toNat < 0x80) (n : Nat) :
    hexValue? (ascii c) = some n ↔ HexDigit c n := by
  have table : ∀ k < 0x80, ∀ n < 16, hexValue? (ascii (Char.ofNat k)) = some n ↔
      (Char.ofNat k).toLower = Nat.digitChar n := by decide +kernel
  by_cases bound : n < 16
  · rw [← Char.ofNat_toNat c, table c.toNat small n bound, HexDigit]
    exact (and_iff_right bound).symm
  · exact iff_of_false (fun value => bound (hexValue?_lt value)) fun digit => bound digit.1

theorem hexUnit?_eq_some_iff {a b c d : UInt8} {unit : Nat} :
    hexUnit? a b c d = some unit ↔ ∃ w x y z, hexValue? a = some w ∧ hexValue? b = some x ∧
      hexValue? c = some y ∧ hexValue? d = some z ∧
        unit = 4096 * w + 256 * x + 16 * y + z := by
  unfold hexUnit? hexByte?
  cases hexValue? a <;> cases hexValue? b <;> cases hexValue? c <;> cases hexValue? d <;>
    simp [eq_comm]
  omega

theorem encode_unit {digits : List Char} {code : Nat} (written : UnitText digits code) :
    ∃ a b c d, encode digits = [a, b, c, d] ∧ hexUnit? a b c d = some code := by
  cases written with
  | @digits a b c d w x y z first second third fourth =>
      have ascii_a := toNat_lt_of_hexDigit first
      have ascii_b := toNat_lt_of_hexDigit second
      have ascii_c := toNat_lt_of_hexDigit third
      have ascii_d := toNat_lt_of_hexDigit fourth
      refine ⟨ascii a, ascii b, ascii c, ascii d, ?_, ?_⟩
      · rw [encode_cons_of_ascii ascii_a, encode_cons_of_ascii ascii_b,
          encode_cons_of_ascii ascii_c, encode_cons_of_ascii ascii_d, encode_nil]
      · exact hexUnit?_eq_some_iff.2 ⟨w, x, y, z, (hexValue?_ascii ascii_a w).2 first,
          (hexValue?_ascii ascii_b x).2 second, (hexValue?_ascii ascii_c y).2 third,
          (hexValue?_ascii ascii_d z).2 fourth, rfl⟩

/-- The digits of a unit are read at its last one. -/
theorem readStringBytes_unit {digits : List Char} {code : Nat} (written : UnitText digits code)
    {leading : Option Nat} {bytes : Bytes} {next : StringMode}
    (read : readUnit leading code = .ok (bytes, next)) (rest : Bytes) :
    readStringBytes (.unit leading []) (encode digits ++ rest) =
      prepend bytes (readStringBytes next rest) := by
  obtain ⟨a, b, c, d, digits, unit⟩ := encode_unit written
  have last : stringStep (.unit leading [a, b, c]) d = .ok (bytes, next) := by
    rw [stringStep, unit]
    exact read
  rw [digits]
  simp only [List.cons_append, List.nil_append]
  rw [readStringBytes_cons rfl rfl, readStringBytes_cons rfl rfl, readStringBytes_cons rfl rfl]
  simp only [prepend_nil]
  exact readStringBytes_cons rfl last rest

theorem readUnit_whole {code : Nat} (whole : ¬(0xD800 ≤ code ∧ code ≤ 0xDFFF)) :
    readUnit none code = .ok (String.utf8EncodeChar (Char.ofNat code), .plain) := by
  have noTrailing : isTrailing code = false := by simp [isTrailing]; omega
  have noLeading : isLeading code = false := by simp [isLeading]; omega
  simp [readUnit, noTrailing, noLeading, charBytes]

theorem readUnit_leading {code : Nat} (leading : 0xD800 ≤ code ∧ code ≤ 0xDBFF) :
    readUnit none code = .ok ([], .half code) := by
  have noTrailing : isTrailing code = false := by simp [isTrailing]; omega
  have isLeading : isLeading code = true := by simp [isLeading]; omega
  simp [readUnit, noTrailing, isLeading]

theorem readUnit_trailing (leading : Nat) {code : Nat}
    (trailing : 0xDC00 ≤ code ∧ code ≤ 0xDFFF) :
    readUnit (some leading) code =
      .ok (String.utf8EncodeChar (Char.ofNat (pairCode leading code)), .plain) := by
  have isTrailing : isTrailing code = true := by simp [isTrailing]; omega
  simp [readUnit, isTrailing, charBytes]

/-- What is written for a character is read as its bytes. -/
theorem readStringBytes_item {item : List Char} {c : Char} (written : LiteralItem item c)
    (rest : Bytes) :
    readStringBytes .plain (encode item ++ rest) =
      prepend (String.utf8EncodeChar c) (readStringBytes .plain rest) := by
  cases written with
  | plain noQuote noBackslash noControl =>
      rw [encode_cons, encode_nil, List.append_nil]
      exact readStringBytes_ordinary (isOrdinary_of_mem noQuote noBackslash noControl) rest
  | short escape =>
      simp only [shortEscapes, List.mem_cons, Prod.mk.injEq, List.not_mem_nil, or_false] at escape
      rcases escape with ⟨rfl, rfl⟩ | ⟨rfl, rfl⟩ | ⟨rfl, rfl⟩ | ⟨rfl, rfl⟩ | ⟨rfl, rfl⟩ | ⟨rfl, rfl⟩ |
        ⟨rfl, rfl⟩ | ⟨rfl, rfl⟩ <;> exact readStringBytes_short (by decide) rfl rest
  | unit written whole =>
      rw [encode_cons_of_ascii (by decide), encode_cons_of_ascii (by decide), List.cons_append,
        List.cons_append, readStringBytes_cons rfl rfl, readStringBytes_cons rfl rfl, prepend_nil,
        prepend_nil]
      exact readStringBytes_unit written (readUnit_whole whole) rest
  | pair first second isLeading isTrailing =>
      rw [encode_cons_of_ascii (by decide), encode_cons_of_ascii (by decide), encode_append,
        encode_cons_of_ascii (by decide), encode_cons_of_ascii (by decide), List.cons_append,
        List.cons_append, List.append_assoc, List.cons_append, List.cons_append,
        readStringBytes_cons rfl rfl, readStringBytes_cons rfl rfl, prepend_nil, prepend_nil,
        readStringBytes_unit first (readUnit_leading isLeading), prepend_nil,
        readStringBytes_cons rfl rfl, readStringBytes_cons rfl rfl, prepend_nil, prepend_nil]
      exact readStringBytes_unit second (readUnit_trailing _ isTrailing) rest

/-- The inside of a literal is read up to its closing quote. -/
theorem readStringBytes_written {body chars : List Char} (written : LiteralText body chars)
    (rest : Bytes) :
    readStringBytes .plain (encode body ++ ascii '"' :: rest) = .ok (encode chars, rest) := by
  induction written with
  | nil => rfl
  | cons first more ih =>
      rw [encode_append, List.append_assoc, readStringBytes_item first, ih, encode_cons]
      rfl

/-- A literal reads as its text, and reading stops behind the closing quote. -/
theorem readString_written {body : List Char} {text : String}
    (written : LiteralText body text.toList) (rest : Bytes) :
    readString (encode (body ++ ['"']) ++ rest) = .ok (text, rest) := by
  have closing : encode (body ++ ['"']) ++ rest = encode body ++ ascii '"' :: rest := by
    rw [encode_append, List.append_assoc]
    rfl
  rw [closing, readString, readStringBytes_written written]
  simp [bind, Except.bind]

/-! ## Printed literals -/

theorem hexDigit_hexDigit (n : Nat) : HexDigit (hexDigit n) (n % 16) := by
  have digits : ∀ k < 16, (Nat.digitChar k).toLower = Nat.digitChar k := by decide
  have small := Nat.mod_lt n (by decide : 0 < 16)
  exact ⟨small, digits (n % 16) small⟩

/-- Control characters without a short escape are written by their number. -/
theorem literalItem_control {c : Char} (control : c.toNat < 0x20) :
    LiteralItem ['\\', 'u', '0', '0', hexDigit (c.toNat / 16), hexDigit c.toNat] c := by
  have zero : HexDigit '0' 0 := ⟨by decide, by decide⟩
  have written := UnitText.digits zero zero (hexDigit_hexDigit (c.toNat / 16))
    (hexDigit_hexDigit c.toNat)
  have code : 4096 * 0 + 256 * 0 + 16 * (c.toNat / 16 % 16) + c.toNat % 16 = c.toNat := by omega
  rw [code] at written
  have item := LiteralItem.unit written (by omega)
  rwa [Char.ofNat_toNat] at item

theorem literalItem_escapedChar (c : Char) : LiteralItem (escapedChar c) c := by
  unfold escapedChar
  split
  · exact .short (by decide)
  · exact .short (by decide)
  · exact .short (by decide)
  · exact .short (by decide)
  · exact .short (by decide)
  · exact .short (by decide)
  · exact .short (by decide)
  · rename_i noQuote noBackslash _ _ _ _ _
    split
    · rename_i control
      exact literalItem_control control
    · rename_i noControl
      exact .plain (fun eq => noQuote eq) (fun eq => noBackslash eq) (Nat.not_lt.1 noControl)

theorem literalText_escaped (chars : List Char) : LiteralText (chars.flatMap escapedChar) chars := by
  induction chars with
  | nil => exact .nil
  | cons c more ih =>
      rw [List.flatMap_cons]
      exact .cons (literalItem_escapedChar c) ih

/-- A printed literal reads as its text, and reading stops behind the closing quote. -/
theorem readString_literal (text : String) (rest : Bytes) :
    readString (encode (text.toList.flatMap escapedChar ++ ['"']) ++ rest) = .ok (text, rest) :=
  readString_written (literalText_escaped text.toList) rest

end Folio.Json
