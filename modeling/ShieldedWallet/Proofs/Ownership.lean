/-
Whose notes enter a witness.

An address is two keys, and a note is the account's own if both are the
account's.  The guard on inputs sits where they are voided, and there the
viewing scalar is all that there is: it compares the viewing keys only.

* `Account.views_iff` — what the guard compares;
* `Account.owner_of_opens` — the signals of an input open the note of somebody
  else only by a collision;
* `Witness.build_ownership` — an input with another viewing key is refused, at
  any place; one with the account's viewing key and another spending key is let
  in, and its signals do not open its note unless two notes collide.
-/
import ShieldedWallet.Proofs.Commitment
import ShieldedWallet.Proofs.NoteRelation

namespace ShieldedWallet

/-- The note with another owner. -/
def Note.movedTo (n : Note) (owner : ShieldedAddress) : Note := { n with owner := owner }

theorem Note.movedTo_owner (n : Note) (owner : ShieldedAddress) :
    (n.movedTo owner).owner = owner := rfl

namespace Account

variable {a : Account} {u : Utxo}

theorem views_iff : a.Views u ↔ u.note.owner.viewingKey = a.address.viewingKey := by
  rw [Views, eq_comm]
  rfl

/-- The keys in a row are the account's, whoever owns the note. -/
theorem spentRow_hash (a : Account) (u : Utxo) (proof : MerkleProof) :
    noteHash (poseidon [(a.spentRow u proof).signingPoint.1, (a.spentRow u proof).signingPoint.2,
        (a.spentRow u proof).seed])
      ((Point.base (Scalar.ofFelt (a.spentRow u proof).seed)).x,
        (Point.base (Scalar.ofFelt (a.spentRow u proof).seed)).y)
      (a.spentRow u proof).salt (a.spentRow u proof).eth (a.spentRow u proof).token
      (a.spentRow u proof).amount (a.spentRow u proof).tokenId =
        (u.note.movedTo a.address).hash := by
  rw [Note.hash, Note.outerInputs, Note.innerInputs, Note.movedTo]
  simp only [spentRow, Scalar.ofFelt_toFelt]
  rfl

/-- A row opens notes of the account only, and else a note that collides with itself at the account's
address. -/
theorem owner_of_opens {proof : MerkleProof} (h : (a.spentRow u proof).Opens u.note) :
    u.note.owner = a.address ∨ (u.note.movedTo a.address).Collides u.note := by
  have hhash : (u.note.movedTo a.address).hash = u.note.hash :=
    (a.spentRow_hash u proof).symm.trans h.hash
  by_cases hcollides : (u.note.movedTo a.address).Collides u.note
  · exact .inr hcollides
  · have hcongruent := Note.congruent_of_hash_eq hhash hcollides
    exact .inl (hcongruent.owner.symm.trans (Note.movedTo_owner _ _))

end Account

namespace Witness

section Ownership

variable {a : Account} {plan : Plan} {proofs : List MerkleProof}

/-- Building refuses exactly the plans with an input, at any place, whose viewing key is not the
account's.  The others are built, and then the signals of the account's own inputs open their notes,
but those of an input with another spending key do not unless two notes collide. -/
theorem build_ownership (hlen : plan.inflow.length ≤ proofs.length) :
    (build a plan proofs = .error .notOwner ↔
        ∃ u ∈ plan.inflow, u.note.owner.viewingKey ≠ a.address.viewingKey) ∧
      ((∀ u ∈ plan.inflow, u.note.owner.viewingKey = a.address.viewingKey) →
        ∃ w spends, build a plan proofs = .ok (w, spends) ∧
          ∀ i u, plan.inflow[i]? = some u → ∃ r, (w.map Felt.ofNat).spentRow? i = some r ∧
            (u.note.owner = a.address → r.Opens u.note) ∧
              (r.Opens u.note → u.note.owner = a.address ∨
                (u.note.movedTo a.address).Collides u.note)) := by
  have hviews : (∀ u ∈ plan.inflow, a.Views u) ↔
      ∀ u ∈ plan.inflow, u.note.owner.viewingKey = a.address.viewingKey :=
    forall₂_congr fun _ _ => Account.views_iff
  constructor
  · rw [build_eq_error_iff hlen, hviews, and_iff_left rfl]
    push Not
    rfl
  · intro hkeys
    refine ⟨_, _, (build_eq_ok_iff hlen).mpr ⟨hviews.mpr hkeys, rfl, rfl⟩, ?_⟩
    intro i u hu
    have hi : i < proofs.length := Nat.lt_of_lt_of_le (List.getElem?_eq_some_iff.mp hu).1 hlen
    exact ⟨_, spentRow?_ofPlan hu (List.getElem?_eq_getElem hi),
      fun howner => Account.spentRow_opens _ howner, Account.owner_of_opens⟩

end Ownership

end Witness

/-! ### A neighbour's note -/

/-- An address with the same viewing key and another spending key. -/
def ShieldedAddress.neighbour (d : ShieldedAddress) : ShieldedAddress :=
  ⟨d.spendingKey + 1, d.viewingKey⟩

theorem ShieldedAddress.neighbour_ne (d : ShieldedAddress) : d.neighbour ≠ d := by
  intro h
  have hkey : d.spendingKey + 1 = d.spendingKey := congrArg spendingKey h
  exact absurd (add_eq_left.mp hkey) (by decide)

namespace Account

/-- A balanced plan that spends a neighbour's note. -/
def neighbourPlan (a : Account) : Plan where
  inflow := [⟨⟨a.address.neighbour, 11, .ether 100⟩, .unspent⟩]
  outflow := [.plain ⟨⟨a.address, 12, .ether 95⟩, .nonIncluded⟩]
  swap := none
  fee := 5

theorem checkBalance_neighbourPlan (a : Account) : a.neighbourPlan.checkBalance = .ok () := by
  have hin : ∀ x ∈ a.neighbourPlan.inflowAssets, x.isEtherOnly = true :=
    List.forall_mem_singleton.mpr rfl
  have hout : ∀ x ∈ a.neighbourPlan.outflowAssets, x.isEtherOnly = true :=
    List.forall_mem_singleton.mpr rfl
  have hether : (100 : Nat) < amountBound := by decide
  exact Plan.checkBalance_of_etherOnly hin hout hether rfl

theorem viewingKey_of_mem_neighbourPlan {a : Account} :
    ∀ u ∈ a.neighbourPlan.inflow, u.note.owner.viewingKey = a.address.viewingKey :=
  List.forall_mem_singleton.mpr rfl

end Account

namespace Desk

/-- The desk's account spends its own note, which its signals open; it also lets in a neighbour's
note, which they open by a collision only. -/
theorem build_ownership_neighbour :
    (∃ w spends r, Witness.build ownDesk.account (ownDesk.account.ownPlan none) [⟨7, [], 4⟩] =
        .ok (w, spends) ∧ (w.map Felt.ofNat).spentRow? 0 = some r ∧
          r.Opens ⟨ownDesk.account.address, 11, .ether 100⟩) ∧
      ∃ w spends r, Witness.build ownDesk.account ownDesk.account.neighbourPlan [⟨7, [], 4⟩] =
        .ok (w, spends) ∧ (w.map Felt.ofNat).spentRow? 0 = some r ∧
          (r.Opens ⟨ownDesk.account.address.neighbour, 11, .ether 100⟩ →
            (Note.movedTo ⟨ownDesk.account.address.neighbour, 11, .ether 100⟩
              ownDesk.account.address).Collides
                ⟨ownDesk.account.address.neighbour, 11, .ether 100⟩) := by
  have hlen : (ownDesk.account.ownPlan none).inflow.length ≤
      [(⟨7, [], 4⟩ : MerkleProof)].length := Nat.le_refl 1
  have hlen' : ownDesk.account.neighbourPlan.inflow.length ≤
      [(⟨7, [], 4⟩ : MerkleProof)].length := Nat.le_refl 1
  have hown : ∀ u ∈ (ownDesk.account.ownPlan none).inflow,
      u.note.owner.viewingKey = ownDesk.account.address.viewingKey := fun u hu =>
    congrArg ShieldedAddress.viewingKey (Account.owner_of_mem_ownPlan u hu)
  obtain ⟨w, spends, hbuild, hrows⟩ := (Witness.build_ownership hlen).2 hown
  obtain ⟨r, hr, hopens, -⟩ := hrows 0 _ rfl
  obtain ⟨w', spends', hbuild', hrows'⟩ := (Witness.build_ownership hlen').2
    Account.viewingKey_of_mem_neighbourPlan
  obtain ⟨r', hr', -, hcollides⟩ := hrows' 0 _ rfl
  refine ⟨⟨w, spends, r, hbuild, hr, hopens rfl⟩, w', spends', r', hbuild', hr', fun h => ?_⟩
  exact (hcollides h).resolve_left (ShieldedAddress.neighbour_ne _)

/-- A balanced plan that spends the note of another owner is built. -/
theorem build_of_neighbour :
    (∃ u ∈ ownDesk.account.neighbourPlan.inflow, u.note.owner ≠ ownDesk.account.address) ∧
      ownDesk.account.neighbourPlan.checkBalance = .ok () ∧
        ∃ w spends, Witness.build ownDesk.account ownDesk.account.neighbourPlan [⟨7, [], 4⟩] =
          .ok (w, spends) := by
  have hviews : ∀ u ∈ ownDesk.account.neighbourPlan.inflow, ownDesk.account.Views u :=
    fun u hu => Account.views_iff.mpr (Account.viewingKey_of_mem_neighbourPlan u hu)
  have hlen : ownDesk.account.neighbourPlan.inflow.length ≤
      [(⟨7, [], 4⟩ : MerkleProof)].length := Nat.le_refl 1
  exact ⟨⟨_, List.mem_singleton_self _, ShieldedAddress.neighbour_ne _⟩,
    Account.checkBalance_neighbourPlan _, _, _,
    (Witness.build_eq_ok_iff hlen).mpr ⟨hviews, rfl, rfl⟩⟩

end Desk

end ShieldedWallet
