/-
Elements of the field in bytes, and amounts in the field.

An element is written in 32 bytes in either order.  The bytes that are read are
those of numbers below the order of the field, each number in one spelling, and
what is written is read again.  Amounts are wider than the field: what comes
back of an amount is its residue.

* `Felt.Canonical` — how a reader and a writer of elements belong together;
* `Felt.Canonical.reverse` — they still do with all bytes in the opposite order;
* `Amount.ofFelt_eq_ofBytesBE`, `Amount.toFelt_eq_ofNat` — amounts and elements
  pass into each other through their bytes;
* `Felt.bytes_canonical` — both byte orders are canonical, one is the other
  reversed, and an amount that passes through the field is reduced.

Design notes: the reader puts its number together from words of 64 bits, which
is settled in `Felt.ofBytesBE?_eq`.  From there on bytes and numbers are one
thing, and the other byte order follows by reversal.
-/
import ShieldedWallet.Proofs.Reading

namespace ShieldedWallet

/-! ### Bytes in the opposite order -/

namespace FixedBytes

variable {n : Nat}

@[simp] theorem reverse_reverse (b : FixedBytes n) : b.reverse.reverse = b :=
  FixedBytes.ext (List.reverse_reverse b.toList)

theorem reverse_ofNatBE (n v : Nat) : (ofNatBE n v).reverse = ofNatLE n v :=
  FixedBytes.ext (List.reverse_reverse (Bytes.ofNatLE n v))

end FixedBytes

/-! ### Elements -/

namespace Felt

/-- A reader and a writer of elements belong together, where `number` says which number bytes
write. -/
structure Canonical (read : FixedBytes 32 → Option Felt) (write : Felt → FixedBytes 32)
    (number : FixedBytes 32 → Nat) : Prop where
  /-- Bytes are read exactly if their number is below the order. -/
  reads_iff : ∀ b, (∃ a, read b = some a) ↔ number b < fieldOrder
  /-- The element read is that number. -/
  val_eq : ∀ b a, read b = some a → a.val = number b
  /-- It is written in no other way. -/
  write_eq : ∀ b a, read b = some a → write a = b
  /-- What is written is read again. -/
  read_write : ∀ a, read (write a) = some a

theorem canonical_be : Canonical ofBytesBE? toBytesBE FixedBytes.toNatBE where
  reads_iff b := by
    rw [ofBytesBE?_eq]
    constructor
    · rintro ⟨a, ha⟩
      rw [ofResidue?_eq_some_iff.mp ha]
      exact a.isLt
    · intro hlt
      exact ⟨⟨b.toNatBE, hlt⟩, ofResidue?_eq_some_iff.mpr rfl⟩
  val_eq b a hread := by
    rw [ofBytesBE?_eq, ofResidue?_eq_some_iff] at hread
    exact hread.symm
  write_eq b a hread := (ofBytesBE?_eq_some_iff.mp hread).symm
  read_write a := ofBytesBE?_eq_some_iff.mpr rfl

theorem Canonical.reverse {read : FixedBytes 32 → Option Felt} {write : Felt → FixedBytes 32}
    {number : FixedBytes 32 → Nat} (h : Canonical read write number) :
    Canonical (fun b => read b.reverse) (fun a => (write a).reverse)
      (fun b => number b.reverse) where
  reads_iff b := h.reads_iff b.reverse
  val_eq b := h.val_eq b.reverse
  write_eq b a hread := by
    rw [h.write_eq b.reverse a hread, FixedBytes.reverse_reverse]
  read_write a := by
    rw [FixedBytes.reverse_reverse]
    exact h.read_write a

theorem toBytesLE_eq_reverse (a : Felt) : a.toBytesLE = a.toBytesBE.reverse :=
  (FixedBytes.reverse_ofNatBE 32 a.val).symm

theorem canonical_le : Canonical ofBytesLE? toBytesLE FixedBytes.toNatLE := by
  have hwrite : (fun a => (toBytesBE a).reverse) = toBytesLE :=
    funext fun a => (toBytesLE_eq_reverse a).symm
  have hnumber : (fun b : FixedBytes 32 => b.reverse.toNatBE) = FixedBytes.toNatLE :=
    funext FixedBytes.toNatBE_reverse
  have hreversed := canonical_be.reverse
  rw [hwrite, hnumber] at hreversed
  exact hreversed

end Felt

/-! ### Amounts -/

namespace Amount

theorem ofFelt_eq_ofBytesBE (a : Felt) : ofFelt a = ofBytesBE a.toBytesBE := by
  have hnumber : a.val = a.toBytesBE.toNatBE :=
    Felt.canonical_be.val_eq a.toBytesBE a (Felt.canonical_be.read_write a)
  exact Amount.ext hnumber

theorem toFelt_eq_ofNat (x : Amount) : x.toFelt = Felt.ofNat x.toBytesBE.toNatBE := by
  show Felt.ofNat x.toNat = Felt.ofNat (ofBytesBE x.toBytesBE).toNat
  rw [ofBytesBE_toBytesBE]

/-- What comes back of an amount is its residue. -/
theorem toNat_ofFelt_toFelt (x : Amount) : (ofFelt x.toFelt).toNat = x.toNat % fieldOrder :=
  Felt.toNat_ofNat x.toNat

end Amount

namespace Felt

/-- Elements have one spelling in each byte order, which is read again and which no number at or
above the order has, and the two orders are reversals of each other.  Amounts pass into the field
and back by their bytes, and are reduced modulo its order. -/
theorem bytes_canonical :
    Canonical ofBytesBE? toBytesBE FixedBytes.toNatBE ∧
      Canonical ofBytesLE? toBytesLE FixedBytes.toNatLE ∧
      (∀ b : FixedBytes 32, ofBytesLE? b = ofBytesBE? b.reverse ∧ b.toNatLE = b.reverse.toNatBE) ∧
      (∀ a, toBytesLE a = (toBytesBE a).reverse) ∧
      (∀ a, Amount.ofFelt a = Amount.ofBytesBE a.toBytesBE) ∧
      ∀ x : Amount, x.toFelt = ofNat x.toBytesBE.toNatBE ∧
        (Amount.ofFelt x.toFelt).toNat = x.toNat % fieldOrder := by
  refine ⟨canonical_be, canonical_le, ?_, toBytesLE_eq_reverse, Amount.ofFelt_eq_ofBytesBE, ?_⟩
  · intro b
    exact ⟨rfl, b.toNatBE_reverse.symm⟩
  · intro x
    exact ⟨x.toFelt_eq_ofNat, x.toNat_ofFelt_toFelt⟩

/-- The order itself is refused, and the number before it is not. -/
example : (ofBytesBE? (.ofNatBE 32 fieldOrder)).isSome = false ∧
    (ofBytesBE? (.ofNatBE 32 (fieldOrder - 1))).isSome = true := by
  decide +kernel

end Felt

end ShieldedWallet
