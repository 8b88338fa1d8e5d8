/-
Why an address is refused.

The causes cover both kinds of address; `AddressError.message` words each of
them.
-/
import ShieldedWallet.Bytes.Hex
import ShieldedWallet.Text.Base58

namespace ShieldedWallet

/-- The report of a refused hexadecimal text. -/
def Hex.Error.message : Hex.Error → String
  | .oddLength => "Odd number of digits"
  | .invalidDigit byte position =>
    "Invalid character " ++ Text.quoteChar (Char.ofNat byte.toNat) ++ s!" at position {position}"

/-- Why an address is refused. -/
inductive AddressError where
  | base58 (cause : Base58.Error)
  /-- There are `got` bytes instead of `expected`. -/
  | length (expected got : Nat)
  /-- The checksum is not that of the bytes before it. -/
  | checksum
  /-- The spending key is no least residue. -/
  | spendingKey
  /-- The viewing key is no point of the subgroup. -/
  | viewingKey
  | hex (cause : Hex.Error)
  deriving DecidableEq

/-- The report of a refused address. -/
def AddressError.message : AddressError → String
  | .base58 cause => "Invalid base58 payload: " ++ cause.message
  | .length expected got => s!"Invalid address length: expected {expected} bytes, got {got}"
  | .checksum => "Address checksum mismatch"
  | .spendingKey => "Spending key is not a canonical field element"
  | .viewingKey => "Viewing key is not a valid curve point"
  | .hex cause => "Invalid hex address: " ++ cause.message

end ShieldedWallet
