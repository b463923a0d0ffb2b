import Folio.Text.Utf8

/-!
# The bytes of characters

A text is encoded character by character.  Characters of ASCII are one byte each
and all bytes of the others lie above ASCII, so a byte of ASCII in the encoding
of a text always is a character of it.  No encoding begins another one, and only
the first byte of a character looks like a first byte.
-/

namespace Folio.Text

def encode (chars : List Char) : Bytes := chars.flatMap String.utf8EncodeChar

@[simp] theorem encode_nil : encode [] = [] := rfl

theorem encode_cons (c : Char) (chars : List Char) :
    encode (c :: chars) = String.utf8EncodeChar c ++ encode chars := rfl

@[simp] theorem encode_append (front back : List Char) :
    encode (front ++ back) = encode front ++ encode back := List.flatMap_append

@[simp] theorem utf8_ofList (chars : List Char) : utf8 (String.ofList chars) = encode chars := by
  rw [utf8, String.toList_ofList, encode]

theorem encode_toList (text : String) : encode text.toList = utf8 text := rfl

@[simp] theorem ofUtf8?_encode (chars : List Char) :
    ofUtf8? (encode chars) = some (String.ofList chars) := by
  rw [← utf8_ofList, ofUtf8?_utf8]

theorem utf8EncodeChar_of_ascii {c : Char} (h : c.toNat < 0x80) :
    String.utf8EncodeChar c = [c.toUInt8] := by
  have small : c.val.toNat ≤ 0x7f := Nat.le_of_lt_succ h
  rw [String.utf8EncodeChar, if_pos small]
  rfl

theorem encode_cons_of_ascii {c : Char} (h : c.toNat < 0x80) (chars : List Char) :
    encode (c :: chars) = c.toUInt8 :: encode chars := by
  rw [encode_cons, utf8EncodeChar_of_ascii h, List.singleton_append]

/-- Characters of ASCII are encoded one by one. -/
theorem encode_of_ascii {chars : List Char} (ascii : ∀ c ∈ chars, c.toNat < 0x80) :
    encode chars = chars.map Char.toUInt8 := by
  induction chars with
  | nil => rfl
  | cons c rest ih =>
      rw [encode_cons_of_ascii (ascii c List.mem_cons_self),
        ih fun d mem => ascii d (List.mem_cons_of_mem c mem), List.map_cons]

theorem toNat_toUInt8 {c : Char} (h : c.toNat < 0x100) : c.toUInt8.toNat = c.toNat := by
  rw [Char.toUInt8, UInt32.toNat_toUInt8]
  exact Nat.mod_eq_of_lt h

/-- The bytes of characters of ASCII are in the order of the characters. -/
theorem toUInt8_le_iff {c d : Char} (low : c.toNat < 0x80) (high : d.toNat < 0x80) :
    c.toUInt8 ≤ d.toUInt8 ↔ c ≤ d := by
  rw [UInt8.le_iff_toNat_le, toNat_toUInt8 (by omega), toNat_toUInt8 (by omega)]
  rfl

theorem toUInt8_inj {c d : Char} (ascii : c.toNat < 0x80) (ascii' : d.toNat < 0x80) :
    c.toUInt8 = d.toUInt8 ↔ c = d := by
  constructor
  · intro same
    have codes := congrArg UInt8.toNat same
    rw [toNat_toUInt8 (by omega), toNat_toUInt8 (by omega)] at codes
    exact Char.toNat_inj.1 codes
  · rintro rfl
    rfl

/-- Every byte of a character beyond ASCII is beyond ASCII. -/
theorem le_of_mem_utf8EncodeChar {c : Char} (h : 0x80 ≤ c.toNat) {b : UInt8}
    (mem : b ∈ String.utf8EncodeChar c) : 0x80 ≤ b := by
  have above : ∀ n, 0x80 ≤ n → n < 0x100 → (0x80 : UInt8) ≤ UInt8.ofNat n := by
    intro n low high
    rw [UInt8.le_iff_toNat_le, UInt8.toNat_ofNat_of_lt' high]
    exact low
  have large : ¬ c.val.toNat ≤ 0x7f := Nat.not_le_of_lt h
  rw [String.utf8EncodeChar, if_neg large] at mem
  split at mem
  · simp only [List.mem_cons, List.not_mem_nil, or_false] at mem
    rcases mem with rfl | rfl <;> exact above _ (by omega) (by omega)
  · split at mem
    · simp only [List.mem_cons, List.not_mem_nil, or_false] at mem
      rcases mem with rfl | rfl | rfl <;> exact above _ (by omega) (by omega)
    · simp only [List.mem_cons, List.not_mem_nil, or_false] at mem
      rcases mem with rfl | rfl | rfl | rfl <;> exact above _ (by omega) (by omega)

/-- No character's encoding begins the encoding of another one. -/
theorem utf8EncodeChar_append_inj {c d : Char} {front back : Bytes}
    (h : String.utf8EncodeChar c ++ front = String.utf8EncodeChar d ++ back) :
    c = d ∧ front = back := by
  have first : ∀ (e : Char) (rest : Bytes),
      ByteArray.utf8DecodeChar? (String.utf8EncodeChar e ++ rest).toByteArray 0 = some e := by
    intro e rest
    rw [List.toByteArray_append]
    exact ByteArray.utf8DecodeChar?_utf8EncodeChar_append
  have same : c = d := by
    have left := first c front
    rw [h, first d back] at left
    exact (Option.some.inj left).symm
  subst same
  exact ⟨rfl, List.append_cancel_left h⟩

/-- A byte of ASCII in front of an encoding is a character of it. -/
theorem exists_cons_of_encode_eq {chars : List Char} {b : UInt8} {rest : Bytes} (ascii : b < 0x80)
    (bytes : encode chars = b :: rest) :
    ∃ c more, chars = c :: more ∧ c.toNat < 0x80 ∧ b = c.toUInt8 ∧ rest = encode more := by
  cases chars with
  | nil => cases bytes
  | cons c more =>
      by_cases small : c.toNat < 0x80
      · rw [encode_cons_of_ascii small] at bytes
        obtain ⟨rfl, rfl⟩ := List.cons.inj bytes
        exact ⟨c, more, rfl, small, rfl, rfl⟩
      · have high : 0x80 ≤ b := by
          refine le_of_mem_utf8EncodeChar (Nat.not_lt.1 small) ?_
          rw [encode_cons] at bytes
          obtain ⟨d, others, char⟩ := List.exists_cons_of_ne_nil (l := String.utf8EncodeChar c)
            String.utf8EncodeChar_ne_nil
          rw [char, List.cons_append] at bytes
          rw [char, ← (List.cons.inj bytes).1]
          exact List.mem_cons_self
        exact absurd ascii (UInt8.not_lt.2 high)

/-- The byte of a character of ASCII in front of an encoding is that character. -/
theorem eq_cons_of_encode_eq {chars : List Char} {c : Char} {rest : Bytes} (ascii : c.toNat < 0x80)
    (bytes : encode chars = c.toUInt8 :: rest) : ∃ more, chars = c :: more ∧ rest = encode more := by
  have small : c.toUInt8 < 0x80 := by
    rw [UInt8.lt_iff_toNat_lt, toNat_toUInt8 (by omega)]
    exact ascii
  obtain ⟨d, more, rfl, other, same, rest⟩ := exists_cons_of_encode_eq small bytes
  rw [(toUInt8_inj ascii other).1 same]
  exact ⟨more, rfl, rest⟩

/-- Bytes of ASCII are cut off the front of an encoding as characters. -/
theorem exists_span_encode {passes : UInt8 → Bool} (ascii : ∀ b, passes b = true → b < 0x80)
    (chars : List Char) :
    ∃ front back, chars = front ++ back ∧
      (∀ c ∈ front, c.toNat < 0x80 ∧ passes c.toUInt8 = true) ∧
      (encode chars).takeWhile passes = encode front ∧
      (encode chars).dropWhile passes = encode back := by
  induction chars with
  | nil => exact ⟨[], [], rfl, fun _ => nofun, rfl, rfl⟩
  | cons c more ih =>
      cases bytes : encode (c :: more) with
      | nil => exact ⟨[], c :: more, rfl, fun _ => nofun, rfl, by rw [bytes]; rfl⟩
      | cons b rest =>
          cases here : passes b with
          | false =>
              refine ⟨[], c :: more, rfl, fun _ => nofun, ?_, ?_⟩
              · rw [List.takeWhile_cons_of_neg (by rw [here]; exact Bool.false_ne_true)]
                rfl
              · rw [List.dropWhile_cons_of_neg (by rw [here]; exact Bool.false_ne_true), bytes]
          | true =>
              obtain ⟨d, _, same, small, rfl, rfl⟩ := exists_cons_of_encode_eq (ascii b here) bytes
              obtain ⟨rfl, rfl⟩ := List.cons.inj same
              obtain ⟨front, back, rfl, all, taken, dropped⟩ := ih
              refine ⟨c :: front, back, rfl, List.forall_mem_cons.2 ⟨⟨small, here⟩, all⟩, ?_, ?_⟩
              · rw [List.takeWhile_cons_of_pos here, taken, encode_cons_of_ascii small]
              · rw [List.dropWhile_cons_of_pos here, dropped]

theorem encode_injective {front back : List Char} (h : encode front = encode back) :
    front = back := by
  have texts := congrArg ofUtf8? h
  simp only [ofUtf8?_encode, Option.some.injEq] at texts
  exact String.ofList_injective texts

end Folio.Text
