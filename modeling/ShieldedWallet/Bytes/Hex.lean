/-
Hexadecimal text of byte strings.

`encode` writes two lower-case digits a byte; `decode?` reads digits of either
case.  A text is refused for an odd count of digits before any digit is looked
at, and otherwise for its first character that is no digit.

Design notes: digits are looked for among the bytes of the text, so the
position of a bad digit counts bytes, and a digit outside ASCII is reported by
the first byte that writes it.
-/
import ShieldedWallet.Bytes.Basic

namespace ShieldedWallet.Hex

/-- Why a text is no hexadecimal byte string. -/
inductive Error where
  /-- The digits do not come in pairs. -/
  | oddLength
  /-- The byte at `position` is no hexadecimal digit. -/
  | invalidDigit (byte : UInt8) (position : Nat)
  deriving DecidableEq

/-- The digit of a value below 16. -/
def digit (n : Nat) : Char := "0123456789abcdef".toList.getD n '0'

/-- The value of a digit, given as an ASCII code. -/
def digitValue? (b : UInt8) : Option Nat :=
  if 48 ≤ b ∧ b ≤ 57 then some (b.toNat - 48)
  else if 97 ≤ b ∧ b ≤ 102 then some (b.toNat - 87)
  else if 65 ≤ b ∧ b ≤ 70 then some (b.toNat - 55)
  else none

/-- Two lower-case digits for each byte. -/
def encodeChars : Bytes → List Char
  | [] => []
  | b :: bs => digit (b.toNat / 16) :: digit (b.toNat % 16) :: encodeChars bs

/-- The hexadecimal text of a byte string. -/
def encode (bs : Bytes) : String := String.ofList (encodeChars bs)

/-- Reads pairs of digits, the first of them standing at byte `position`. -/
def decodePairs (position : Nat) : Bytes → Except Error Bytes
  | [] => .ok []
  | [_] => .error .oddLength
  | h :: l :: rest => do
    let some hi := digitValue? h | throw (.invalidDigit h position)
    let some lo := digitValue? l | throw (.invalidDigit l (position + 1))
    return UInt8.ofNat (16 * hi + lo) :: (← decodePairs (position + 2) rest)

/-- The byte string that a hexadecimal text writes. -/
def decode? (text : String) : Except Error Bytes :=
  let digits := text.toUTF8.toList
  if digits.length % 2 = 1 then .error .oddLength else decodePairs 0 digits

end ShieldedWallet.Hex
