/-
Addresses on the base ledger.

An address of 160 bits names a token contract or the recipient of a
withdrawal.  It is kept as a number; its bytes are the number's, most
significant first, so the order of addresses is that of their bytes.

* `ofBytes_toBytes` — twenty bytes hold every address;
* `toFelt` — the address as an element of the circuit's field, injective since
  the field is larger.
-/
import ShieldedWallet.Amount
import ShieldedWallet.Address.Error

namespace ShieldedWallet

-- Powers of numbers are those of the core library, whatever else is imported.
attribute [local instance (high)] instPowNat

/-- An address on the base ledger, a number of 160 bits. -/
@[ext] structure LedgerAddress where
  toNat : Nat
  isLt : toNat < 2 ^ (160 : Nat)
  deriving DecidableEq

namespace LedgerAddress

/-- The address of which all bytes are zero. -/
def zero : LedgerAddress := ⟨0, by decide⟩

instance : Inhabited LedgerAddress := ⟨zero⟩

instance : LE LedgerAddress := ⟨fun a b => a.toNat ≤ b.toNat⟩

instance : LT LedgerAddress := ⟨fun a b => a.toNat < b.toNat⟩

instance (a b : LedgerAddress) : Decidable (a ≤ b) :=
  inferInstanceAs (Decidable (a.toNat ≤ b.toNat))

instance (a b : LedgerAddress) : Decidable (a < b) :=
  inferInstanceAs (Decidable (a.toNat < b.toNat))

/-- The twenty bytes, most significant first. -/
def toBytes (a : LedgerAddress) : FixedBytes 20 := .ofNatBE 20 a.toNat

/-- The address that twenty bytes write. -/
def ofBytes (b : FixedBytes 20) : LedgerAddress :=
  ⟨b.toNatBE, by
    have h := Bytes.toNatBE_lt b.toList
    rw [b.length_eq, show (256 : Nat) ^ 20 = 2 ^ 160 by decide] at h
    exact h⟩

theorem ofBytes_toBytes (a : LedgerAddress) : ofBytes a.toBytes = a := by
  have h : a.toNat < 256 ^ 20 := a.isLt
  apply LedgerAddress.ext
  simp only [ofBytes, toBytes, FixedBytes.toNatBE, FixedBytes.ofNatBE]
  rw [Bytes.toNatBE_ofNatBE, Nat.mod_eq_of_lt h]

theorem toBytes_ofBytes (b : FixedBytes 20) : (ofBytes b).toBytes = b := by
  have h := Bytes.ofNatBE_toNatBE b.toList
  rw [b.length_eq] at h
  exact FixedBytes.ext h

/-- The address as an element of the circuit's field. -/
def toFelt (a : LedgerAddress) : Felt := ⟨a.toNat, Nat.lt_trans a.isLt (by decide)⟩

theorem toFelt_inj {a b : LedgerAddress} (h : a.toFelt = b.toFelt) : a = b := by
  have hval : a.toFelt.val = b.toFelt.val := congrArg Fin.val h
  exact LedgerAddress.ext hval

/-- The bytes in hexadecimal behind `0x`. -/
def toText (a : LedgerAddress) : String := "0x" ++ Hex.encode a.toBytes.toList

/-- The text behind a leading `0x`, or the whole text if there is none. -/
def stripMark (text : String) : String :=
  match text.toList with
  | '0' :: 'x' :: rest => String.ofList rest
  | _ => text

/-- The address that a hexadecimal text writes; a leading `0x` may be left out. -/
def ofText? (text : String) : Except AddressError LedgerAddress :=
  match Hex.decode? (stripMark text) with
  | .error cause => .error (.hex cause)
  | .ok bytes =>
    match FixedBytes.ofList? 20 bytes with
    | none => .error (.length 20 bytes.length)
    | some b => .ok (ofBytes b)

end LedgerAddress

end ShieldedWallet
