/-
The circuit's field is a field.

The elements are kept as least residues with the arithmetic of `Fin`, and
inverses are powers.  Seen in the residues modulo the prime `fieldOrder`, the
operations are those of a field:

* `Felt.toResidue` — the view, which is injective;
* `Felt.toResidue_add`, `Felt.toResidue_sub`, `Felt.toResidue_mul`,
  `Felt.toResidue_pow`, `Felt.toResidue_inv` — what each operation does to it.
-/
import Mathlib.FieldTheory.Finite.Basic
import ShieldedWallet.Proofs.Curve.Primality

namespace ShieldedWallet

instance : Fact fieldOrder.Prime := ⟨fieldOrder_prime⟩

namespace Felt

/-- The element among the residues modulo the order of the field. -/
def toResidue (a : Felt) : ZMod fieldOrder := (a.val : ZMod fieldOrder)

theorem toResidue_inj {a b : Felt} (h : a.toResidue = b.toResidue) : a = b := by
  have hmod : a.val % fieldOrder = b.val % fieldOrder :=
    (ZMod.natCast_eq_natCast_iff' _ _ _).mp h
  rw [Nat.mod_eq_of_lt a.isLt, Nat.mod_eq_of_lt b.isLt] at hmod
  exact Fin.ext hmod

@[simp] theorem toResidue_zero : (0 : Felt).toResidue = 0 := by
  simp [toResidue]

@[simp] theorem toResidue_one : (1 : Felt).toResidue = 1 := by
  simp [toResidue]

@[simp] theorem toResidue_add (a b : Felt) : (a + b).toResidue = a.toResidue + b.toResidue := by
  rw [toResidue, Fin.val_add, ZMod.natCast_mod, Nat.cast_add, toResidue, toResidue]

@[simp] theorem toResidue_mul (a b : Felt) : (a * b).toResidue = a.toResidue * b.toResidue := by
  rw [toResidue, Fin.val_mul, ZMod.natCast_mod, Nat.cast_mul, toResidue, toResidue]

@[simp] theorem toResidue_sub (a b : Felt) : (a - b).toResidue = a.toResidue - b.toResidue := by
  rw [eq_sub_iff_add_eq, ← toResidue_add]
  congr 1
  exact sub_add_cancel a b

theorem toResidue_powBits (a : Felt) (w n : Nat) :
    (powBits a w n).toResidue = a.toResidue ^ (n % 2 ^ w) := by
  induction w generalizing n with
  | zero => simp [powBits, Nat.mod_one]
  | succ w ih =>
    rw [mod_two_pow_succ, pow_add, pow_add, ← ih]
    rcases Nat.mod_two_eq_zero_or_one n with hbit | hbit
    · simp [powBits, hbit]
    · simp [powBits, hbit]

theorem toResidue_pow (a : Felt) {n : Nat} (hn : n < 2 ^ 256) :
    (pow a n).toResidue = a.toResidue ^ n := by
  rw [pow, toResidue_powBits, Nat.mod_eq_of_lt hn]

/-- The power by the order less two is the inverse, also of zero. -/
theorem toResidue_inv (a : Felt) : a.inv.toResidue = a.toResidue⁻¹ := by
  rw [inv, toResidue_pow a (by decide)]
  by_cases ha : a.toResidue = 0
  · rw [ha, inv_zero]
    exact zero_pow (by decide)
  · refine eq_inv_of_mul_eq_one_left ?_
    rw [← pow_succ]
    exact ZMod.pow_card_sub_one_eq_one ha

end Felt

end ShieldedWallet
