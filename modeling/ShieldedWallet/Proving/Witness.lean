/-
The witness: what the prover is told about a plan.

Every signal of the circuit is a number.  Signals that belong to an input or to
an output form columns, one entry for each.  The public signals are listed in
the order in which the circuit declares them: roots, nullifiers, hashes of new
notes, kinds of outputs, the six columns of exit data, the fee and the swap.

* `Witness.build` — the witness of a plan signed by an account, with the
  spends it voids; refused if an input is not the account's;
* `Witness.publicSignals` — the public signals;
* `Witness.map` — the witness with each signal written another way, as in
  `Witness.toText`.

Design notes: the witness is generic in how a signal is written, so that the
columns are built as numbers and shown to the prover as decimal texts.
-/
import ShieldedWallet.Plan.Basic
import ShieldedWallet.Transaction.Basic

namespace ShieldedWallet

/-- The proof that a leaf is in the pool's tree: its place, and the siblings on the way from there
to the root. -/
@[ext] structure MerkleProof where
  root : Felt
  siblings : List Felt
  index : UInt64
  deriving DecidableEq

/-- The signals of the circuit, in columns: those of spent notes, those of new notes, and those that
belong to the whole.  A signature is its nonce point and its answer.  What plain outputs show, and a
swap that is not there, are zero. -/
@[ext] structure Witness (α : Type) where
  spentSigningPoint : List (α × α)
  spentSignature : List (α × α × α)
  spentSeed : List α
  spentSalt : List α
  spentEth : List α
  spentToken : List α
  spentAmount : List α
  spentTokenId : List α
  spentIndex : List α
  siblings : List (List α)
  roots : List α
  nullifiers : List α
  newSpendingKey : List α
  newViewingKey : List (α × α)
  newSalt : List α
  newEth : List α
  newToken : List α
  newAmount : List α
  newTokenId : List α
  newHash : List α
  kinds : List α
  publicTo : List α
  publicEth : List α
  publicToken : List α
  publicAmount : List α
  publicTokenId : List α
  publicFee : List α
  fee : α
  swap : α
  deriving DecidableEq

namespace Witness

variable {α β : Type}

/-- The witness with every signal written another way. -/
def map (f : α → β) (w : Witness α) : Witness β where
  spentSigningPoint := w.spentSigningPoint.map fun (x, y) => (f x, f y)
  spentSignature := w.spentSignature.map fun (x, y, s) => (f x, f y, f s)
  spentSeed := w.spentSeed.map f
  spentSalt := w.spentSalt.map f
  spentEth := w.spentEth.map f
  spentToken := w.spentToken.map f
  spentAmount := w.spentAmount.map f
  spentTokenId := w.spentTokenId.map f
  spentIndex := w.spentIndex.map f
  siblings := w.siblings.map (List.map f)
  roots := w.roots.map f
  nullifiers := w.nullifiers.map f
  newSpendingKey := w.newSpendingKey.map f
  newViewingKey := w.newViewingKey.map fun (x, y) => (f x, f y)
  newSalt := w.newSalt.map f
  newEth := w.newEth.map f
  newToken := w.newToken.map f
  newAmount := w.newAmount.map f
  newTokenId := w.newTokenId.map f
  newHash := w.newHash.map f
  kinds := w.kinds.map f
  publicTo := w.publicTo.map f
  publicEth := w.publicEth.map f
  publicToken := w.publicToken.map f
  publicAmount := w.publicAmount.map f
  publicTokenId := w.publicTokenId.map f
  publicFee := w.publicFee.map f
  fee := f w.fee
  swap := f w.swap

/-- The public signals, in the order of the circuit. -/
def publicSignals (w : Witness α) : List α :=
  w.roots ++ w.nullifiers ++ w.newHash ++ w.kinds ++ w.publicTo ++ w.publicEth ++ w.publicToken ++
    w.publicAmount ++ w.publicTokenId ++ w.publicFee ++ [w.fee, w.swap]

theorem publicSignals_map (f : α → β) (w : Witness α) :
    (w.map f).publicSignals = w.publicSignals.map f := by
  simp [publicSignals, map]

/-- Inputs that the witness is for. -/
def inputs (w : Witness α) : Nat := w.nullifiers.length

/-- Outputs that the witness is for. -/
def outputs (w : Witness α) : Nat := w.newHash.length

/-! ### Building -/

/-- An input with its inclusion proof and the value that voids it. -/
structure SpentInput where
  utxo : Utxo
  proof : MerkleProof
  nullifier : Felt
  deriving DecidableEq

/-- The public view of an input. -/
def SpentInput.spend (i : SpentInput) : Spend := ⟨i.nullifier, i.proof.root⟩

/-- The inputs that have a proof, with the values that void them under a seed. -/
def spentInputs (seed : Scalar) : List (Utxo × MerkleProof) → Except NoteError (List SpentInput)
  | [] => .ok []
  | (utxo, proof) :: rest => do
    let nullifier ← utxo.nullifier seed proof.index
    let inputs ← spentInputs seed rest
    return ⟨utxo, proof, nullifier⟩ :: inputs

/-- What an output shows; plain outputs show zeros. -/
def shownData (o : Outflow) : ExitData := (o.exit?.map ExitData.ofExit).getD .zero

/-- The columns of inputs signed by an account and of outputs, with a fee and a swap. -/
def ofParts (account : Account) (spent : List SpentInput) (outflow : List Outflow) (fee : Amount)
    (swap : Option Felt) : Witness Nat :=
  let key := account.signingPoint
  let signatures := spent.map fun i => account.sign i.utxo.note.hash
  { spentSigningPoint := spent.map fun _ => (key.x.val, key.y.val)
    spentSignature := signatures.map fun s => (s.r.x.val, s.r.y.val, s.s.val)
    spentSeed := spent.map fun _ => account.viewingScalar.val
    spentSalt := spent.map fun i => i.utxo.note.salt.val
    spentEth := spent.map fun i => i.utxo.asset.eth.toNat
    spentToken := spent.map fun i => i.utxo.asset.token.toNat
    spentAmount := spent.map fun i => i.utxo.asset.amount.toNat
    spentTokenId := spent.map fun i => i.utxo.asset.tokenId.toNat
    spentIndex := spent.map fun i => i.proof.index.toNat
    siblings := spent.map fun i => i.proof.siblings.map Fin.val
    roots := spent.map fun i => i.proof.root.val
    nullifiers := spent.map fun i => i.nullifier.val
    newSpendingKey := outflow.map fun o => o.note.owner.spendingKey.val
    newViewingKey := outflow.map fun o =>
      (o.note.owner.viewingKey.x.val, o.note.owner.viewingKey.y.val)
    newSalt := outflow.map fun o => o.note.salt.val
    newEth := outflow.map fun o => o.asset.eth.toNat
    newToken := outflow.map fun o => o.asset.token.toNat
    newAmount := outflow.map fun o => o.asset.amount.toNat
    newTokenId := outflow.map fun o => o.asset.tokenId.toNat
    newHash := outflow.map fun o => o.note.hash.val
    kinds := outflow.map fun o => o.kind.code.toNat
    publicTo := outflow.map fun o => (shownData o).destination.toNat
    publicEth := outflow.map fun o => (shownData o).eth.toNat
    publicToken := outflow.map fun o => (shownData o).token.toNat
    publicAmount := outflow.map fun o => (shownData o).amount.toNat
    publicTokenId := outflow.map fun o => (shownData o).tokenId.toNat
    publicFee := outflow.map fun o => (shownData o).fee.toNat
    fee := fee.toNat
    swap := (swap.getD 0).val }

/-- The witness of a plan signed by an account, and the spends it voids.  Proofs belong to inputs
by position; what has no partner is left out. -/
def build (account : Account) (plan : Plan) (proofs : List MerkleProof) :
    Except NoteError (Witness Nat × List Spend) := do
  let spent ← spentInputs account.viewingScalar (plan.inflow.zip proofs)
  return (ofParts account spent plan.outflow plan.fee plan.swap, spent.map SpentInput.spend)

/-- The witness with its signals in decimal digits. -/
def toText (w : Witness Nat) : Witness String := w.map fun n => toString n

end Witness

end ShieldedWallet
