/-
Where inclusion proofs come from.

A source answers for the hash of a note with the proof that the note is in the
pool's tree, or says why it has none.

* `ProofSource` — any source;
* `ProofTable` — a source that holds a fixed list of proofs by leaf;
* `proofsFor` — the proofs of the inputs of a plan, in their order, or the
  first failure.
-/
import ShieldedWallet.Proving.Witness

namespace ShieldedWallet

/-- Why there is no inclusion proof. -/
inductive InclusionError where
  /-- No proof is known for the leaf. -/
  | notFound (leaf : Felt)
  /-- The source itself failed. -/
  | source (reason : String)
  deriving DecidableEq

/-- The report of a missing inclusion proof. -/
def InclusionError.message : InclusionError → String
  | .notFound leaf => "No inclusion proof for leaf " ++ leaf.toDecimal
  | .source reason => "Merkle source error: " ++ reason

/-- Answers for a leaf with its inclusion proof. -/
abbrev ProofSource := Felt → Except InclusionError MerkleProof

/-- The proofs of a list of inputs in order, or the first failure. -/
def proofsFor (source : ProofSource) : List Utxo → Except InclusionError (List MerkleProof)
  | [] => .ok []
  | u :: us => do
    let proof ← source u.note.hash
    let proofs ← proofsFor source us
    return proof :: proofs

/-- Inclusion proofs by leaf; each leaf has at most one. -/
structure ProofTable where
  entries : List (Felt × MerkleProof)

namespace ProofTable

/-- No proofs. -/
def empty : ProofTable := ⟨[]⟩

/-- Sets the proof of a leaf. -/
def insert (t : ProofTable) (leaf : Felt) (proof : MerkleProof) : ProofTable :=
  ⟨(leaf, proof) :: t.entries.filter fun e => e.1 ≠ leaf⟩

/-- The proof of a leaf. -/
def get? (t : ProofTable) (leaf : Felt) : Option MerkleProof := t.entries.lookup leaf

/-- How many leaves have a proof. -/
def size (t : ProofTable) : Nat := t.entries.length

/-- The table as a source. -/
def source (t : ProofTable) : ProofSource := fun leaf =>
  match t.get? leaf with
  | some proof => .ok proof
  | none => .error (.notFound leaf)

end ProofTable

end ShieldedWallet
