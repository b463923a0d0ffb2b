import Folio.Text.Utf8

/-!
# Repaired text

Bytes that are not well-formed UTF-8 can still be shown: every stretch that begins
a character and does not finish it, and every byte that begins none, is replaced by
the replacement character.
-/

namespace Folio.Text

/-- The character that stands for bytes that are no text. -/
def replacement : Char := '\uFFFD'

structure Begun where
  /-- The bits read so far. -/
  bits : Nat
  /-- How many bytes are to follow. -/
  left : Nat
  /-- The smallest byte that may come next. -/
  low : Nat
  /-- The largest byte that may come next. -/
  high : Nat

def beginChar (b : Nat) : List Char × Option Begun :=
  if b < 0x80 then ([Char.ofNat b], none)
  else if 0xC2 ≤ b && b ≤ 0xDF then ([], some ⟨b - 0xC0, 1, 0x80, 0xBF⟩)
  else if 0xE0 ≤ b && b ≤ 0xEF then
    ([], some ⟨b - 0xE0, 2, if b = 0xE0 then 0xA0 else 0x80, if b = 0xED then 0x9F else 0xBF⟩)
  else if 0xF0 ≤ b && b ≤ 0xF4 then
    ([], some ⟨b - 0xF0, 3, if b = 0xF0 then 0x90 else 0x80, if b = 0xF4 then 0x8F else 0xBF⟩)
  else ([replacement], none)

def repairStep (begun : Option Begun) (b : Nat) : List Char × Option Begun :=
  match begun with
  | none => beginChar b
  | some ⟨bits, left, low, high⟩ =>
      if low ≤ b && b ≤ high then
        let bits := 64 * bits + (b - 0x80)
        if left = 1 then ([Char.ofNat bits], none) else ([], some ⟨bits, left - 1, 0x80, 0xBF⟩)
      else
        let (chars, begun) := beginChar b
        (replacement :: chars, begun)

/-- The characters of bytes, from inside a character on if one has begun. -/
def repairFrom : Option Begun → Bytes → List Char
  | none, [] => []
  | some _, [] => [replacement]
  | begun, b :: rest =>
      let (chars, begun) := repairStep begun b.toNat
      chars ++ repairFrom begun rest

/-- The text of bytes, with a replacement for everything that is no text. -/
def repaired (bytes : Bytes) : String := String.ofList (repairFrom none bytes)

end Folio.Text
