/-
The witness satisfies the relation of notes.

A circuit reads the signals of a witness as field elements and recomputes from
them what they claim: the hashes of spent and of new notes, signatures,
nullifiers and the balance of ether.  The witness of a balanced plan, built by
the account that owns its inputs, passes.

* `SpentRow.Opens` — the signals of an input recompute the hash of its note, are
  signed, and void it;
* `NewRow.Commits` — the signals of an output recompute the hash of its note and
  show what they have to show;
* `NoteRelation` — both for all inputs and outputs, and the balance of ether;
* `Witness.noteRelation_of_checkBalance` — a balanced plan of own inputs has a
  witness, and it satisfies the relation.

Design notes: signals are numbers, and a circuit sees them modulo the order of
its field.  Scalars, addresses and indices are below the order and are seen
whole; amounts of ether and tokens may be above it and are seen reduced, as the
hash of a note sees them.
-/
import ShieldedWallet.Proofs.Balance
import ShieldedWallet.Proofs.Signatures
import ShieldedWallet.Proofs.Witnesses

namespace ShieldedWallet

/-! ### Signals as field elements -/

theorem Scalar.ofNat_val (s : Scalar) : Felt.ofNat s.val = s.toFelt :=
  Felt.ofNat_val s.toFelt

theorem Scalar.ofFelt_toFelt (s : Scalar) : Scalar.ofFelt s.toFelt = s :=
  Fin.ext (Nat.mod_eq_of_lt s.isLt)

theorem LedgerAddress.ofNat_toNat (a : LedgerAddress) : Felt.ofNat a.toNat = a.toFelt :=
  Felt.ofNat_val a.toFelt

theorem Felt.ofNat_add (m n : Nat) : Felt.ofNat (m + n) = Felt.ofNat m + Felt.ofNat n :=
  Fin.ext (Nat.add_mod m n fieldOrder)

theorem Felt.sum_map_ofNat (ns : List Nat) : (ns.map Felt.ofNat).sum = Felt.ofNat ns.sum := by
  induction ns with
  | nil => rfl
  | cons n ns ih => rw [List.map_cons, List.sum_cons, ih, List.sum_cons, Felt.ofNat_add]

/-! ### Rows -/

/-- The hash of a note in its two stages. -/
def noteHash (spendingKey : Felt) (viewingKey : Felt × Felt)
    (salt eth token amount tokenId : Felt) : Felt :=
  poseidon [poseidon [eth, spendingKey, salt, viewingKey.1, viewingKey.2], token, amount, tokenId]

/-- The signals of an input that the relation is about. -/
structure SpentRow where
  signingPoint : Felt × Felt
  signature : Felt × Felt × Felt
  seed : Felt
  salt : Felt
  eth : Felt
  token : Felt
  amount : Felt
  tokenId : Felt
  index : Felt
  nullifier : Felt

/-- The keys and the signature are those of the owner of a note, and the nullifier voids it: the
spending key is the hash of the signing point and the seed, and the viewing key the seed's multiple
of the generator. -/
structure SpentRow.Opens (r : SpentRow) (note : Note) : Prop where
  hash : noteHash (poseidon [r.signingPoint.1, r.signingPoint.2, r.seed])
    ((Point.base (Scalar.ofFelt r.seed)).x, (Point.base (Scalar.ofFelt r.seed)).y) r.salt r.eth
    r.token r.amount r.tokenId = note.hash
  signature : Signature.verify
    ⟨⟨r.signature.1, r.signature.2.1⟩, Scalar.ofFelt r.signature.2.2⟩ note.hash
    ⟨r.signingPoint.1, r.signingPoint.2⟩ = true
  nullifier : r.nullifier = poseidon [r.seed, r.index]

/-- The signals of an output that the relation is about. -/
structure NewRow where
  spendingKey : Felt
  viewingKey : Felt × Felt
  salt : Felt
  eth : Felt
  token : Felt
  amount : Felt
  tokenId : Felt
  hash : Felt
  publicEth : Felt
  publicToken : Felt
  publicAmount : Felt
  publicTokenId : Felt

/-- The hash is that of the note in the row, which is the output's, and an output that leaves the
pool shows the asset in the row. -/
structure NewRow.Commits (r : NewRow) (o : Outflow) : Prop where
  hash : noteHash r.spendingKey r.viewingKey r.salt r.eth r.token r.amount r.tokenId = r.hash
  note : r.hash = o.note.hash
  shown : o.kind.isPublic →
    r.publicEth = r.eth ∧ r.publicToken = r.token ∧ r.publicAmount = r.amount ∧
      r.publicTokenId = r.tokenId

namespace Witness

/-- The signals of the input with an index. -/
def spentRow? (w : Witness Felt) (i : Nat) : Option SpentRow := do
  return {
    signingPoint := ← w.spentSigningPoint[i]?
    signature := ← w.spentSignature[i]?
    seed := ← w.spentSeed[i]?
    salt := ← w.spentSalt[i]?
    eth := ← w.spentEth[i]?
    token := ← w.spentToken[i]?
    amount := ← w.spentAmount[i]?
    tokenId := ← w.spentTokenId[i]?
    index := ← w.spentIndex[i]?
    nullifier := ← w.nullifiers[i]? }

/-- The signals of the output with an index. -/
def newRow? (w : Witness Felt) (i : Nat) : Option NewRow := do
  return {
    spendingKey := ← w.newSpendingKey[i]?
    viewingKey := ← w.newViewingKey[i]?
    salt := ← w.newSalt[i]?
    eth := ← w.newEth[i]?
    token := ← w.newToken[i]?
    amount := ← w.newAmount[i]?
    tokenId := ← w.newTokenId[i]?
    hash := ← w.newHash[i]?
    publicEth := ← w.publicEth[i]?
    publicToken := ← w.publicToken[i]?
    publicAmount := ← w.publicAmount[i]?
    publicTokenId := ← w.publicTokenId[i]? }

end Witness

/-- What a circuit recomputes from a witness, read as field elements, of a plan: all inputs, all
outputs, and the balance of ether. -/
structure NoteRelation (plan : Plan) (w : Witness Felt) : Prop where
  spent : ∀ i u, plan.inflow[i]? = some u → ∃ r, w.spentRow? i = some r ∧ r.Opens u.note
  created : ∀ i o, plan.outflow[i]? = some o → ∃ r, w.newRow? i = some r ∧ r.Commits o
  ether : w.spentEth.sum = w.newEth.sum + w.fee + w.publicFee.sum

/-! ### The rows of a plan -/

/-- The row of an input that an account signs. -/
def Account.spentRow (a : Account) (u : Utxo) (proof : MerkleProof) : SpentRow where
  signingPoint := (a.signingPoint.x, a.signingPoint.y)
  signature := ((a.sign u.note.hash).r.x, (a.sign u.note.hash).r.y, (a.sign u.note.hash).s.toFelt)
  seed := a.viewingScalar.toFelt
  salt := u.note.salt
  eth := u.asset.eth.toFelt
  token := u.asset.token.toFelt
  amount := u.asset.amount.toFelt
  tokenId := u.asset.tokenId.toFelt
  index := Felt.ofNat proof.index.toNat
  nullifier := (a.spend proof).nullifier

def Outflow.newRow (o : Outflow) : NewRow where
  spendingKey := o.note.owner.spendingKey
  viewingKey := (o.note.owner.viewingKey.x, o.note.owner.viewingKey.y)
  salt := o.note.salt
  eth := o.asset.eth.toFelt
  token := o.asset.token.toFelt
  amount := o.asset.amount.toFelt
  tokenId := o.asset.tokenId.toFelt
  hash := o.note.hash
  publicEth := (Witness.shownData o).eth.toFelt
  publicToken := (Witness.shownData o).token.toFelt
  publicAmount := (Witness.shownData o).amount.toFelt
  publicTokenId := (Witness.shownData o).tokenId.toFelt

theorem Account.spentRow_opens {a : Account} {u : Utxo} (proof : MerkleProof)
    (howner : u.note.owner = a.address) : (a.spentRow u proof).Opens u.note := by
  refine ⟨?_, ?_, rfl⟩
  · -- the note's keys are those of the address, which are recomputed from point and seed
    rw [Note.hash, Note.outerInputs, Note.innerInputs, howner]
    simp only [Account.spentRow, Scalar.ofFelt_toFelt]
    rfl
  · simp only [Account.spentRow, Scalar.ofFelt_toFelt]
    exact a.verify_sign u.note.hash

theorem Outflow.newRow_commits (o : Outflow) : o.newRow.Commits o := by
  refine ⟨rfl, rfl, fun hpublic => ?_⟩
  cases o with
  | plain u => cases hpublic
  | withdrawal e => exact ⟨rfl, rfl, rfl, rfl⟩
  | migration e => exact ⟨rfl, rfl, rfl, rfl⟩

namespace Witness

section Rows

variable {a : Account} {plan : Plan} {proofs : List MerkleProof}

/-- The columns hold the rows of the inputs in order. -/
theorem spentRow?_ofPlan {i : Nat} {u : Utxo} {proof : MerkleProof}
    (hu : plan.inflow[i]? = some u) (hproof : proofs[i]? = some proof) :
    ((ofPlan a plan proofs).map Felt.ofNat).spentRow? i = some (a.spentRow u proof) := by
  have hpair : (plan.inflow.zip proofs)[i]? = some (u, proof) :=
    List.getElem?_zip_eq_some.mpr ⟨hu, hproof⟩
  simp only [spentRow?, map, ofPlan, ofParts, List.getElem?_map, hpair, Option.map_some, voided,
    Felt.ofNat_val, Scalar.ofNat_val, LedgerAddress.ofNat_toNat]
  rfl

theorem newRow?_ofPlan {i : Nat} {o : Outflow} (ho : plan.outflow[i]? = some o) :
    ((ofPlan a plan proofs).map Felt.ofNat).newRow? i = some o.newRow := by
  simp only [newRow?, map, ofPlan, ofParts, List.getElem?_map, ho, Option.map_some, Felt.ofNat_val,
    LedgerAddress.ofNat_toNat]
  rfl

/-! ### The relation -/

theorem spentEth_ofPlan (hproofs : proofs.length = plan.inflow.length) :
    (ofPlan a plan proofs).spentEth.sum = etherTotal plan.inflowAssets := by
  have hinflow : (plan.inflow.zip proofs).map Prod.fst = plan.inflow :=
    List.map_fst_zip (Nat.le_of_eq hproofs.symm)
  rw [etherTotal, Plan.inflowAssets, ← hinflow]
  simp only [ofPlan, ofParts, List.map_map]
  rfl

theorem newEth_ofPlan : (ofPlan a plan proofs).newEth.sum = etherTotal plan.outflowAssets := by
  rw [etherTotal, Plan.outflowAssets, List.map_map]
  rfl

theorem publicFee_ofPlan : (ofPlan a plan proofs).publicFee.sum = externalTotal plan.outflow := by
  -- plain outputs show a fee of zero, and that is what they pay
  have hfee (o : Outflow) : (shownData o).fee.toNat = o.externalFee.toNat := by
    cases o <;> rfl
  exact congrArg List.sum (List.map_congr_left fun o _ => hfee o)

theorem ether_ofPlan (hbalance : plan.Balanced) (hproofs : proofs.length = plan.inflow.length)
    {w : Witness Felt} (hw : w = (ofPlan a plan proofs).map Felt.ofNat) :
    w.spentEth.sum = w.newEth.sum + w.fee + w.publicFee.sum := by
  subst hw
  show (((ofPlan a plan proofs).spentEth.map Felt.ofNat).sum =
    ((ofPlan a plan proofs).newEth.map Felt.ofNat).sum + Felt.ofNat plan.fee.toNat +
      ((ofPlan a plan proofs).publicFee.map Felt.ofNat).sum)
  rw [Felt.sum_map_ofNat, Felt.sum_map_ofNat, Felt.sum_map_ofNat, spentEth_ofPlan hproofs,
    newEth_ofPlan, publicFee_ofPlan, hbalance.ether, Felt.ofNat_add, Felt.ofNat_add]

/-- A balanced plan whose inputs the account owns has a witness, and the witness satisfies the
relation of notes. -/
theorem noteRelation_of_checkBalance (hbalance : plan.checkBalance = .ok ())
    (howner : ∀ u ∈ plan.inflow, u.note.owner = a.address)
    (hproofs : proofs.length = plan.inflow.length) :
    ∃ w spends, build a plan proofs = .ok (w, spends) ∧
      NoteRelation plan (w.map Felt.ofNat) := by
  have hviews (u : Utxo) (hu : u ∈ plan.inflow) : a.Views u := Account.views_of_owner (howner u hu)
  have hbuild := (build_eq_ok_iff (Nat.le_of_eq hproofs.symm)).mpr ⟨hviews, rfl, rfl⟩
  refine ⟨_, _, hbuild, ?_, ?_, ?_⟩
  · intro i u hu
    have hi : i < proofs.length := hproofs ▸ (List.getElem?_eq_some_iff.mp hu).1
    exact ⟨_, spentRow?_ofPlan hu (List.getElem?_eq_getElem hi),
      Account.spentRow_opens _ (howner u (List.mem_of_getElem? hu))⟩
  · intro i o ho
    exact ⟨_, newRow?_ofPlan ho, o.newRow_commits⟩
  · exact ether_ofPlan (Plan.checkBalance_eq_ok_iff.mp hbalance).2 hproofs rfl

end Rows

theorem checkBalance_ownPlan (a : Account) (swap : Option Felt) :
    (a.ownPlan swap).checkBalance = .ok () := by
  have hin : ∀ x ∈ (a.ownPlan swap).inflowAssets, x.isEtherOnly = true :=
    List.forall_mem_singleton.mpr rfl
  have hout : ∀ x ∈ (a.ownPlan swap).outflowAssets, x.isEtherOnly = true :=
    List.forall_mem_cons.mpr ⟨rfl, List.forall_mem_singleton.mpr rfl⟩
  have hether : (100 : Nat) < amountBound := by decide
  exact Plan.checkBalance_of_etherOnly hin hout hether rfl

theorem noteRelation_of_checkBalance_ownPlan :
    ∃ w spends, build ⟨.ofNatBE 32 1⟩ (Account.ownPlan ⟨.ofNatBE 32 1⟩ none) [⟨7, [], 4⟩] =
        .ok (w, spends) ∧
      NoteRelation (Account.ownPlan ⟨.ofNatBE 32 1⟩ none) (w.map Felt.ofNat) :=
  noteRelation_of_checkBalance (checkBalance_ownPlan _ none) Account.owner_of_mem_ownPlan rfl

end Witness

end ShieldedWallet
