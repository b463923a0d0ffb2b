import Folio.Proofs.Text.Utf8

/-!
# The order of bytes

Texts compare by the code points of their characters.  UTF-8 writes the code point of a
character in digits, and the more of them there are, the greater is the first byte.  So
the bytes of texts are in the order of the texts.
-/

namespace Folio.Text

theorem ofNat_cons_lt_iff {m n : Nat} (low : m < 0x100) (high : n < 0x100) (front back : Bytes) :
    UInt8.ofNat m :: front < UInt8.ofNat n :: back ↔ m < n ∨ m = n ∧ front < back := by
  rw [List.cons_lt_cons_iff, UInt8.lt_iff_toNat_lt, ← UInt8.toNat_inj,
    UInt8.toNat_ofNat_of_lt' low, UInt8.toNat_ofNat_of_lt' high]

theorem lt_iff_digit (m n : Nat) :
    m < n ↔ m / 0x40 < n / 0x40 ∨ m / 0x40 = n / 0x40 ∧ m % 0x40 < n % 0x40 := by
  omega

/-- Numbers are in the order of their first digits that differ; a byte holds six bits of them. -/
theorem digits_of_lt {m n : Nat} (below : m < n) :
    m / 0x40000 < n / 0x40000 ∨ m / 0x40000 = n / 0x40000 ∧
      (m / 0x1000 % 0x40 < n / 0x1000 % 0x40 ∨ m / 0x1000 % 0x40 = n / 0x1000 % 0x40 ∧
        (m / 0x40 % 0x40 < n / 0x40 % 0x40 ∨ m / 0x40 % 0x40 = n / 0x40 % 0x40 ∧
          m % 0x40 < n % 0x40)) := by
  rw [lt_iff_digit, lt_iff_digit (m / 0x40), lt_iff_digit (m / 0x40 / 0x40)] at below
  simp only [Nat.div_div_eq_div_mul] at below
  omega

/-- The bytes of a smaller character are smaller, whatever stands behind them. -/
theorem utf8EncodeChar_append_lt {c d : Char} (below : c < d) (front back : Bytes) :
    String.utf8EncodeChar c ++ front < String.utf8EncodeChar d ++ back := by
  have codes : c.val.toNat < d.val.toNat := below
  have bound : d.val.toNat < 0x110000 := by
    obtain low | ⟨-, high⟩ := d.valid
    · omega
    · exact high
  have leading : ∀ v, v < 0x110000 → v / 0x40000 % 8 = v / 0x40000 := fun v small =>
    Nat.mod_eq_of_lt (by omega)
  have digits := digits_of_lt codes
  unfold String.utf8EncodeChar
  generalize c.val.toNat = m at *
  generalize d.val.toNat = n at *
  dsimp only
  rw [leading m (by omega), leading n bound]
  -- The cases are how many bytes each of the two characters has.
  repeat' split
  all_goals
    simp (disch := omega) only [List.cons_append, List.nil_append, ofNat_cons_lt_iff]
    generalize (front < back) = behind
    omega

theorem encode_lt_of_lt {front back : List Char} (below : front < back) :
    encode front < encode back := by
  induction front generalizing back with
  | nil =>
      cases back with
      | nil => exact absurd below (List.not_lt_nil [])
      | cons d more =>
          obtain ⟨b, rest, bytes⟩ := List.exists_cons_of_ne_nil (l := String.utf8EncodeChar d)
            String.utf8EncodeChar_ne_nil
          rw [encode_nil, encode_cons, bytes, List.cons_append]
          exact List.nil_lt_cons b _
  | cons c more ih =>
      cases back with
      | nil => exact absurd below (List.not_lt_nil _)
      | cons d others =>
          rw [encode_cons, encode_cons]
          obtain smaller | ⟨rfl, behind⟩ := List.cons_lt_cons_iff.1 below
          · exact utf8EncodeChar_append_lt smaller _ _
          · exact List.append_left_lt (ih behind)

theorem utf8_lt_of_lt {a b : String} (below : a < b) : utf8 a < utf8 b := by
  have chars : a.toList < b.toList := below
  exact encode_lt_of_lt chars

/-- The order of texts is the order of their bytes. -/
theorem utf8_lt_utf8_iff {a b : String} : utf8 a < utf8 b ↔ a < b := by
  constructor
  · intro bytes
    refine Decidable.byContradiction fun notBelow => ?_
    by_cases above : b < a
    · exact List.lt_asymm bytes (utf8_lt_of_lt above)
    · rw [String.le_antisymm above notBelow] at bytes
      exact List.lt_irrefl _ bytes
  · exact utf8_lt_of_lt

end Folio.Text
