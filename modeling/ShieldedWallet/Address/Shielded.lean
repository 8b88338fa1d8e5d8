/-
Shielded addresses.

A shielded address is a spending key, which is a field element, and a viewing
key, which is a point.  It is written in 68 bytes: the spending key, least
significant byte first, the compressed viewing key, and the first four bytes of
the digest of these 64.  The text of an address is the base-58 text of the 68
bytes.

* `toBytes` and `ofBytes?` — the bytes of an address and back;
* `toText` and `ofText?` — the text of an address and back.

Design notes: reading checks the length, the checksum, the spending key and
the viewing key, in this order, and reports the first that fails.
-/
import ShieldedWallet.Address.Error
import ShieldedWallet.Curve.Compressed
import ShieldedWallet.Hash.Keccak

namespace ShieldedWallet

/-- The receiver of a note: who may spend it and who may read it. -/
@[ext] structure ShieldedAddress where
  /-- Commits to the keys that spend. -/
  spendingKey : Felt
  /-- The point that notes are encrypted for. -/
  viewingKey : Point
  deriving DecidableEq

namespace ShieldedAddress

/-- The owner of outputs that leave the pool. -/
def null : ShieldedAddress := ⟨0, .identity⟩

/-- Bytes of an address. -/
def byteLength : Nat := 68

/-- The two keys in 64 bytes. -/
def keyBytes (a : ShieldedAddress) : Bytes :=
  a.spendingKey.toBytesLE.toList ++ a.viewingKey.compress.toList

/-- The four bytes that guard the keys. -/
def checksum (keys : Bytes) : Bytes := (keccak256 keys).toList.take 4

/-- The keys followed by their checksum. -/
def toBytes (a : ShieldedAddress) : Bytes := a.keyBytes ++ checksum a.keyBytes

@[simp] theorem length_keyBytes (a : ShieldedAddress) : a.keyBytes.length = 64 := by
  simp [keyBytes]

@[simp] theorem length_toBytes (a : ShieldedAddress) : a.toBytes.length = byteLength := by
  simp [toBytes, checksum, byteLength]

/-- The address that bytes write. -/
def ofBytes? (bytes : Bytes) : Except AddressError ShieldedAddress :=
  if bytes.length ≠ byteLength then .error (.length byteLength bytes.length)
  else if checksum (bytes.take 64) ≠ bytes.drop 64 then .error .checksum
  else
    match Felt.ofBytesLE? (.ofListPadded 32 bytes) with
    | none => .error .spendingKey
    | some spendingKey =>
      match Point.decompress? (.ofListPadded 32 (bytes.drop 32)) with
      | none => .error .viewingKey
      | some viewingKey => .ok ⟨spendingKey, viewingKey⟩

/-- The text of an address. -/
def toText (a : ShieldedAddress) : String := Base58.encode a.toBytes

/-- The address that a text writes. -/
def ofText? (text : String) : Except AddressError ShieldedAddress :=
  match Base58.decode? text with
  | .error cause => .error (.base58 cause)
  | .ok bytes => ofBytes? bytes

end ShieldedAddress

end ShieldedWallet
