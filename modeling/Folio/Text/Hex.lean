import Folio.Text.Utf8

/-!
# Hexadecimal digits

A byte is written as two hexadecimal digits, in either case.
-/

namespace Folio.Text

def hexValue? (digit : UInt8) : Option Nat :=
  let n := digit.toNat
  if 0x30 ≤ n && n ≤ 0x39 then some (n - 0x30)
  else if 0x61 ≤ n && n ≤ 0x66 then some (n - 0x61 + 10)
  else if 0x41 ≤ n && n ≤ 0x46 then some (n - 0x41 + 10)
  else none

def hexByte? (high low : UInt8) : Option Nat := do
  some (16 * (← hexValue? high) + (← hexValue? low))

theorem hexValue?_lt {digit : UInt8} {n : Nat} (h : hexValue? digit = some n) : n < 16 := by
  grind [hexValue?]

end Folio.Text
