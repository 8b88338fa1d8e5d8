/-
Inclusion proofs and witnesses of a plan's inputs.

* `proofsFor_eq_ok_iff`, `proofsFor_eq_error_iff` — the proofs are the source's
  answers by position, and a failure is the first one;
* `Account.Views` — the account's viewing scalar is the one behind the viewing
  key of a note's owner;
* `Witness.build_eq_ok_iff`, `Witness.build_eq_error_iff` — a witness is built
  exactly if the account views every input, and is then `Witness.ofPlan`, with
  the nullifiers and roots in the order of the inputs;
* `Account.ownPlan` — a small balanced plan of an account's own notes.

Design notes: inputs and proofs are paired by position and what has no partner
is left out, so the statements about building ask for at least as many proofs
as inputs.
-/
import ShieldedWallet.Proofs.Outcome
import ShieldedWallet.Proving.Inclusion

namespace ShieldedWallet

/-! ### Inclusion proofs -/

theorem proofsFor_eq_mapM (source : ProofSource) (us : List Utxo) :
    proofsFor source us = us.mapM fun u => source u.note.hash := by
  induction us with
  | nil => rfl
  | cons u us ih => rw [proofsFor, ih, List.mapM_cons]

theorem proofsFor_eq_ok_iff {source : ProofSource} {us : List Utxo} {proofs : List MerkleProof} :
    proofsFor source us = .ok proofs ↔ us.map (fun u => source u.note.hash) = proofs.map .ok := by
  rw [proofsFor_eq_mapM, Except.mapM_eq_ok_iff]

theorem proofsFor_eq_error_iff {source : ProofSource} {us : List Utxo} {e : InclusionError} :
    proofsFor source us = .error e ↔
      Except.FirstFailure (fun u : Utxo => source u.note.hash) us e := by
  rw [proofsFor_eq_mapM, Except.mapM_eq_error_iff]

/-- A source that proves every input gives all the proofs. -/
theorem proofsFor_of_forall {source : ProofSource} {us : List Utxo}
    (h : ∀ u ∈ us, ∃ proof, source u.note.hash = .ok proof) :
    ∃ proofs, proofsFor source us = .ok proofs := by
  cases hproofs : proofsFor source us with
  | ok proofs => exact ⟨proofs, rfl⟩
  | error e =>
    obtain ⟨before, u, after, rfl, -, hrefused⟩ := proofsFor_eq_error_iff.mp hproofs
    obtain ⟨proof, hproof⟩ := h u (List.mem_append_right before List.mem_cons_self)
    exact nomatch hproof.symm.trans hrefused

/-! ### Inputs -/

/-- The account's viewing scalar is the one behind the viewing key of the note's owner. -/
def Account.Views (a : Account) (u : Utxo) : Prop :=
  Point.base a.viewingScalar = u.note.owner.viewingKey

/-- An account views the notes at its own address. -/
theorem Account.views_of_owner {a : Account} {u : Utxo} (h : u.note.owner = a.address) :
    a.Views u := by
  show Point.base a.viewingScalar = u.note.owner.viewingKey
  rw [h]
  rfl

/-- The view of an input that an account voids. -/
def Account.spend (a : Account) (proof : MerkleProof) : Spend :=
  ⟨poseidon (Utxo.nullifierInputs a.viewingScalar proof.index), proof.root⟩

theorem Utxo.nullifier_eq_ok_iff {u : Utxo} {seed : Scalar} {leaf : UInt64} {n : Felt} :
    u.nullifier seed leaf = .ok n ↔
      Point.base seed = u.note.owner.viewingKey ∧ n = poseidon (nullifierInputs seed leaf) := by
  unfold nullifier
  split
  · rename_i howner
    rw [Except.ok.injEq, eq_comm, and_iff_right howner]
  · rename_i howner
    exact iff_of_false (fun h => nomatch h) (fun h => howner h.1)

theorem Utxo.nullifier_eq_error_iff {u : Utxo} {seed : Scalar} {leaf : UInt64} {e : NoteError} :
    u.nullifier seed leaf = .error e ↔
      Point.base seed ≠ u.note.owner.viewingKey ∧ e = .notOwner := by
  unfold nullifier
  split
  · rename_i howner
    exact iff_of_false (fun h => nomatch h) (fun h => h.1 howner)
  · rename_i howner
    rw [Except.error.injEq, eq_comm, and_iff_right howner]

namespace Witness

/-- An input with its proof, voided under the account's viewing scalar. -/
def voided (a : Account) (q : Utxo × MerkleProof) : SpentInput :=
  ⟨q.1, q.2, (a.spend q.2).nullifier⟩

/-- The witness of a plan with the given proofs of its inputs. -/
def ofPlan (a : Account) (plan : Plan) (proofs : List MerkleProof) : Witness Nat :=
  ofParts a ((plan.inflow.zip proofs).map (voided a)) plan.outflow plan.fee plan.swap

theorem spentInputs_eq_ok_iff {a : Account} {pairs : List (Utxo × MerkleProof)}
    {spent : List SpentInput} :
    spentInputs a.viewingScalar pairs = .ok spent ↔
      (∀ q ∈ pairs, a.Views q.1) ∧ spent = pairs.map (voided a) := by
  induction pairs generalizing spent with
  | nil =>
    constructor
    · rintro ⟨⟩
      exact ⟨List.forall_mem_nil _, rfl⟩
    · rintro ⟨-, rfl⟩
      rfl
  | cons q pairs ih =>
    rw [spentInputs, Except.bind_eq_ok_iff, List.forall_mem_cons]
    constructor
    · rintro ⟨n, hn, hrest⟩
      obtain ⟨hviews, hn⟩ := Utxo.nullifier_eq_ok_iff.mp hn
      obtain ⟨spent, hspent, hpure⟩ := Except.bind_eq_ok_iff.mp hrest
      obtain ⟨hall, rfl⟩ := ih.mp hspent
      cases hpure
      refine ⟨⟨hviews, hall⟩, ?_⟩
      rw [hn]
      rfl
    · rintro ⟨⟨hviews, hall⟩, rfl⟩
      exact ⟨_, Utxo.nullifier_eq_ok_iff.mpr ⟨hviews, rfl⟩,
        Except.bind_eq_ok_iff.mpr ⟨_, ih.mpr ⟨hall, rfl⟩, rfl⟩⟩

theorem spentInputs_eq_error_iff {a : Account} {pairs : List (Utxo × MerkleProof)}
    {e : NoteError} :
    spentInputs a.viewingScalar pairs = .error e ↔
      ¬ (∀ q ∈ pairs, a.Views q.1) ∧ e = .notOwner := by
  induction pairs with
  | nil => exact iff_of_false (fun h => nomatch h) (fun h => h.1 (List.forall_mem_nil _))
  | cons q pairs ih =>
    rw [spentInputs, Except.bind_eq_error_iff, List.forall_mem_cons, Utxo.nullifier_eq_error_iff]
    constructor
    · rintro (⟨hviews, rfl⟩ | ⟨n, -, hrest⟩)
      · exact ⟨fun h => hviews h.1, rfl⟩
      · rcases Except.bind_eq_error_iff.mp hrest with hspent | ⟨_, _, hpure⟩
        · obtain ⟨hall, rfl⟩ := ih.mp hspent
          exact ⟨fun h => hall h.2, rfl⟩
        · cases hpure
    · rintro ⟨hall, rfl⟩
      -- the first input not viewed may be this one or a later one
      by_cases hviews : a.Views q.1
      · have hrest := fun h => hall ⟨hviews, h⟩
        exact .inr ⟨_, Utxo.nullifier_eq_ok_iff.mpr ⟨hviews, rfl⟩,
          Except.bind_eq_error_iff.mpr (.inl (ih.mpr ⟨hrest, rfl⟩))⟩
      · exact .inl ⟨hviews, rfl⟩

section Build

variable {a : Account} {plan : Plan} {proofs : List MerkleProof}

theorem forall_mem_zip_views_iff (hlen : plan.inflow.length ≤ proofs.length) :
    (∀ q ∈ plan.inflow.zip proofs, a.Views q.1) ↔ ∀ u ∈ plan.inflow, a.Views u := by
  conv => rhs; rw [← List.map_fst_zip hlen]
  rw [List.forall_mem_map]

theorem build_eq_ok_iff (hlen : plan.inflow.length ≤ proofs.length) {w : Witness Nat}
    {spends : List Spend} :
    build a plan proofs = .ok (w, spends) ↔
      (∀ u ∈ plan.inflow, a.Views u) ∧ w = ofPlan a plan proofs ∧
        spends = (plan.inflow.zip proofs).map fun q => a.spend q.2 := by
  have hspends : ((plan.inflow.zip proofs).map (voided a)).map SpentInput.spend =
      (plan.inflow.zip proofs).map fun q => a.spend q.2 := List.map_map
  rw [build, Except.bind_eq_ok_iff, ← forall_mem_zip_views_iff hlen, ← hspends]
  constructor
  · rintro ⟨spent, hspent, hpure⟩
    obtain ⟨hviews, rfl⟩ := spentInputs_eq_ok_iff.mp hspent
    cases hpure
    exact ⟨hviews, rfl, rfl⟩
  · rintro ⟨hviews, rfl, rfl⟩
    exact ⟨_, spentInputs_eq_ok_iff.mpr ⟨hviews, rfl⟩, rfl⟩

theorem build_eq_error_iff (hlen : plan.inflow.length ≤ proofs.length) {e : NoteError} :
    build a plan proofs = .error e ↔ ¬ (∀ u ∈ plan.inflow, a.Views u) ∧ e = .notOwner := by
  rw [build, Except.bind_eq_error_iff, spentInputs_eq_error_iff, forall_mem_zip_views_iff hlen]
  exact or_iff_left (fun ⟨_, _, h⟩ => nomatch h)

end Build

end Witness

/-! ### A plan of own notes -/

namespace Account

/-- A balanced plan of one input, one plain output and one withdrawal, all at the account's own
address. -/
def ownPlan (a : Account) (swap : Option Felt) : Plan where
  inflow := [⟨⟨a.address, 11, .ether 100⟩, .unspent⟩]
  outflow := [.plain ⟨⟨a.address, 12, .ether 30⟩, .nonIncluded⟩,
    .withdrawal ⟨⟨a.address, 13, .ether 60⟩, .zero, 5, .nonIncluded⟩]
  swap := swap
  fee := 5

theorem owner_of_mem_ownPlan {a : Account} {swap : Option Felt} :
    ∀ u ∈ (a.ownPlan swap).inflow, u.note.owner = a.address := by
  intro u hu
  rw [List.mem_singleton.mp hu]

theorem views_of_mem_ownPlan {a : Account} {swap : Option Felt} :
    ∀ u ∈ (a.ownPlan swap).inflow, a.Views u :=
  fun u hu => views_of_owner (owner_of_mem_ownPlan u hu)

theorem build_ownPlan (a : Account) (swap : Option Felt) (proof : MerkleProof) :
    Witness.build a (a.ownPlan swap) [proof] =
      .ok (Witness.ofPlan a (a.ownPlan swap) [proof], [a.spend proof]) := by
  have hlen : (a.ownPlan swap).inflow.length ≤ [proof].length := Nat.le_refl 1
  exact (Witness.build_eq_ok_iff hlen).mpr ⟨views_of_mem_ownPlan, rfl, rfl⟩

end Account

end ShieldedWallet
