/-
Base-58 text of byte strings.

The bytes are read as one number, most significant byte first, and the number
is written with the 58 letters and digits that are hard to confuse.  Each zero
byte in front, which the number does not show, becomes one leading `1`.

* `encode` — the text of a byte string;
* `decode?` — the byte string that a text writes, refusing the first character
  that is no digit.

Design notes: both directions go through the digits of one number, most
significant first and without leading zeros, so leading zeros are carried by
their count alone.
-/
import ShieldedWallet.Bytes.Basic
import ShieldedWallet.Text.Quoted

namespace ShieldedWallet

/-! ### Digits of a number -/

/-- The digits of `n` in the given base, least significant first, as far as the fuel goes. -/
def digitsWithin (base : Nat) : (fuel n : Nat) → List Nat
  | 0, _ => []
  | fuel + 1, n => if n = 0 then [] else n % base :: digitsWithin base fuel (n / base)

/-- The digits of `n` in a base above one, least significant first, with no zero at the end. -/
def digitsLE (base n : Nat) : List Nat := digitsWithin base (Nat.log2 n + 1) n

/-- The number that digits write, least significant first. -/
def ofDigitsLE (base : Nat) : List Nat → Nat
  | [] => 0
  | d :: ds => d + base * ofDigitsLE base ds

namespace Base58

/-- Why a text is no base-58 byte string. -/
inductive Error where
  /-- An ASCII character that is no digit, at a position counted in bytes. -/
  | invalidCharacter (c : Char) (position : Nat)
  /-- A character outside ASCII, at a position counted in bytes. -/
  | nonAscii (position : Nat)
  deriving DecidableEq

/-- The report of a refused text. -/
def Error.message : Error → String
  | .invalidCharacter c position =>
    "provided string contained invalid character " ++ Text.quoteChar c ++
      s!" at byte {position}"
  | .nonAscii position =>
    s!"provided string contained non-ascii character starting at byte {position}"

/-- The digits in the order of their values. -/
def alphabet : List Char :=
  "123456789ABCDEFGHJKLMNPQRSTUVWXYZabcdefghijkmnopqrstuvwxyz".toList

/-- The digit of a value below 58. -/
def digit (n : Nat) : Char := alphabet.getD n '1'

/-- The value of a digit. -/
def digitValue? (c : Char) : Option Nat := alphabet.idxOf? c

/-- The characters of the text of a byte string. -/
def encodeChars (bs : Bytes) : List Char :=
  let zeros := (bs.takeWhile (· = 0)).length
  List.replicate zeros '1' ++ ((digitsLE 58 (Bytes.toNatBE bs)).map digit).reverse

/-- The text of a byte string. -/
def encode (bs : Bytes) : String := String.ofList (encodeChars bs)

/-- The values of digits, the first of them standing at byte `position`. -/
def digitValues (position : Nat) : List Char → Except Error (List Nat)
  | [] => .ok []
  | c :: cs =>
    if 127 < c.toNat then .error (.nonAscii position)
    else
      match digitValue? c with
      | none => .error (.invalidCharacter c position)
      | some v => (digitValues (position + 1) cs).map (v :: ·)

/-- The byte string that characters write. -/
def decodeChars (cs : List Char) : Except Error Bytes := do
  let values ← digitValues 0 cs
  let zeros := (values.takeWhile (· = 0)).length
  let bytes := (digitsLE 256 (ofDigitsLE 58 values.reverse)).map UInt8.ofNat
  return List.replicate zeros 0 ++ bytes.reverse

/-- The byte string that a text writes. -/
def decode? (text : String) : Except Error Bytes := decodeChars text.toList

end Base58

end ShieldedWallet
