/-
Who voids a note, and where.

A note is voided under the viewing scalar of its owner, at a leaf of the pool's
tree.  The guard compares multiples of the generator, and what is hashed are
the scalar and the index of the leaf as field elements; both tell scalars
apart, and the hash tells leaves apart unless it collides.

* `Collision` — different lists of field elements with one hash;
* `Utxo.nullifierInputs_eq_iff` — what is hashed determines scalar and leaf;
* `Utxo.exists_nullifier_iff` — only the scalar behind the owner's viewing point
  voids a note;
* `Utxo.nullifier_of_viewer` — so the notes of a viewer are voided under its
  viewing scalar and no other, with one nullifier for each leaf.
-/
import ShieldedWallet.Proofs.Commitment
import ShieldedWallet.Proofs.Curve.Order
import ShieldedWallet.Proofs.Witnesses

namespace ShieldedWallet

/-- Different lists of field elements with one hash. -/
def Collision (xs ys : List Felt) : Prop := xs ≠ ys ∧ poseidon xs = poseidon ys

theorem poseidon_eq_iff {xs ys : List Felt} :
    poseidon xs = poseidon ys ↔ xs = ys ∨ Collision xs ys := by
  constructor
  · intro h
    by_cases heq : xs = ys
    · exact .inl heq
    · exact .inr ⟨heq, h⟩
  · rintro (rfl | ⟨-, h⟩)
    · rfl
    · exact h

theorem Felt.ofNat_leaf_inj {i j : UInt64} : ofNat i.toNat = ofNat j.toNat ↔ i = j := by
  constructor
  · intro h
    have hlt (k : UInt64) : k.toNat < fieldOrder := Nat.lt_trans k.toNat_lt (by decide)
    have hmod : i.toNat % fieldOrder = j.toNat % fieldOrder := congrArg Fin.val h
    rw [Nat.mod_eq_of_lt (hlt i), Nat.mod_eq_of_lt (hlt j)] at hmod
    exact UInt64.toNat_inj.mp hmod
  · rintro rfl
    rfl

namespace Utxo

variable {u : Utxo} {v : Viewer} {s t : Scalar} {i j : UInt64}

theorem nullifierInputs_eq_iff : nullifierInputs s i = nullifierInputs t j ↔ s = t ∧ i = j := by
  rw [nullifierInputs, nullifierInputs, List.cons.injEq, List.cons.injEq, and_iff_left rfl,
    Felt.ofNat_leaf_inj]
  exact and_congr_left fun _ => ⟨Scalar.toFelt_inj, congrArg Scalar.toFelt⟩

theorem exists_nullifier_iff :
    (∃ n, u.nullifier s i = .ok n) ↔ Point.base s = u.note.owner.viewingKey := by
  simp only [nullifier_eq_ok_iff, exists_and_left, exists_eq, and_true]

theorem nullifier_of_owner (h : u.note.owner = v.address) (i : UInt64) :
    u.nullifier v.viewingScalar i = .ok (poseidon (nullifierInputs v.viewingScalar i)) := by
  refine nullifier_eq_ok_iff.mpr ⟨?_, rfl⟩
  rw [h]
  rfl

/-- A viewer's notes are voided under its viewing scalar only, and two leaves give different
nullifiers under it, whichever of its notes stand there, unless they collide. -/
theorem nullifier_of_viewer (v : Viewer) :
    (∀ u : Utxo, u.note.owner = v.address → ∀ (s : Scalar) (i : UInt64),
      (∃ n, u.nullifier s i = .ok n) ↔ s = v.viewingScalar) ∧
    ∀ u u' : Utxo, u.note.owner = v.address → u'.note.owner = v.address → ∀ i j : UInt64,
      ∃ n n', u.nullifier v.viewingScalar i = .ok n ∧ u'.nullifier v.viewingScalar j = .ok n' ∧
        (n = n' ↔ i = j ∨
          Collision (nullifierInputs v.viewingScalar i) (nullifierInputs v.viewingScalar j)) := by
  refine ⟨fun u howner s i => ?_, fun u u' howner howner' i j => ?_⟩
  · rw [exists_nullifier_iff, howner]
    exact Point.base_inj
  · refine ⟨_, _, nullifier_of_owner howner i, nullifier_of_owner howner' j, ?_⟩
    rw [poseidon_eq_iff, nullifierInputs_eq_iff, and_iff_right rfl]

end Utxo

namespace Desk

/-- Two notes of the desk's account, the neighbouring scalar, and two leaves. -/
theorem nullifier_of_viewer_ownDesk :
    (¬ ∃ n, (Utxo.mk (ownNote 30) .unspent).nullifier (ownDesk.account.viewer.viewingScalar + 1) 7 =
        .ok n) ∧
      ∃ n n', (Utxo.mk (ownNote 30) .unspent).nullifier ownDesk.account.viewer.viewingScalar 7 =
          .ok n ∧
        (Utxo.mk (ownNote 40) .spent).nullifier ownDesk.account.viewer.viewingScalar 8 = .ok n' ∧
          (n = n' → Collision
            (Utxo.nullifierInputs ownDesk.account.viewer.viewingScalar 7)
            (Utxo.nullifierInputs ownDesk.account.viewer.viewingScalar 8)) := by
  obtain ⟨honly, hleaves⟩ := Utxo.nullifier_of_viewer ownDesk.account.viewer
  obtain ⟨n, n', hn, hn', heq⟩ := hleaves ⟨ownNote 30, .unspent⟩ ⟨ownNote 40, .spent⟩ rfl rfl 7 8
  refine ⟨fun h => ?_, n, n', hn, hn', fun h => (heq.mp h).resolve_left (by decide)⟩
  have hscalar := (honly ⟨ownNote 30, .unspent⟩ rfl _ _).mp h
  exact absurd (add_eq_left.mp hscalar) (by decide)

end Desk

end ShieldedWallet
