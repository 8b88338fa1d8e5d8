/-
Proved transactions.

A transaction lists the notes it voids, by nullifier and root of the tree they
are in, and the public view of its outputs; it carries a fee, a proof, an
optional commitment to the counterparty of a swap, and an optional memo.

* `Transaction.make?` — a transaction from its parts, if it can be written:
  at most 255 inputs and outputs, and public data exactly on the outputs that
  leave the pool (`Transaction.WellFormed`);
* `Transaction.size` — the count of its bytes, by `estimateSize`;
* `Transaction.hash` — the digest of `Transaction.packed`, which the memo does
  not enter;
* `Transaction.recoverNotes` — the notes of the memo that a viewer can read
  and that are outputs of the transaction.
-/
import ShieldedWallet.Note.Outflow
import ShieldedWallet.Transaction.Memo

namespace ShieldedWallet

/-! ### Parts -/

/-- The eight coordinates of a Groth16 proof, in the order in which provers print them. -/
@[ext] structure Groth16Proof where
  ax : Amount
  ay : Amount
  b00 : Amount
  b01 : Amount
  b10 : Amount
  b11 : Amount
  cx : Amount
  cy : Amount
  deriving DecidableEq

namespace Groth16Proof

/-- Bytes of a proof. -/
def byteLength : Nat := 256

/-- The coordinates in order. -/
def coordinates (p : Groth16Proof) : List Amount :=
  [p.ax, p.ay, p.b00, p.b01, p.b10, p.b11, p.cx, p.cy]

end Groth16Proof

/-- A note voided by a transaction. -/
@[ext] structure Spend where
  /-- The value that voids the note. -/
  nullifier : Felt
  /-- The root of the tree that the note is proved to be in. -/
  root : Felt
  deriving DecidableEq

/-- What an output shows when it leaves the pool. -/
@[ext] structure ExitData where
  /-- Who receives it on the base ledger. -/
  destination : LedgerAddress
  eth : Amount
  token : LedgerAddress
  amount : Amount
  tokenId : Amount
  /-- The fee paid on the base ledger. -/
  fee : Amount
  deriving DecidableEq

namespace ExitData

/-- All fields zero: what plain outputs show. -/
def zero : ExitData := ⟨.zero, 0, .zero, 0, 0, 0⟩

/-- Bytes of the data. -/
def byteLength : Nat := 168

/-- The data in bytes, each field in its full width. -/
def toBytes (d : ExitData) : Bytes :=
  d.destination.toBytes.toList ++ d.eth.toBytesBE.toList ++ d.token.toBytes.toList ++
    d.amount.toBytesBE.toList ++ d.tokenId.toBytesBE.toList ++ d.fee.toBytesBE.toList

@[simp] theorem length_toBytes (d : ExitData) : d.toBytes.length = byteLength := by
  simp [toBytes, byteLength]

/-- What an exit shows. -/
def ofExit (e : Exit) : ExitData :=
  ⟨e.destination, e.note.asset.eth, e.note.asset.token, e.note.asset.amount,
   e.note.asset.tokenId, e.fee⟩

end ExitData

/-- The public view of an output. -/
@[ext] structure OutflowView where
  note : Felt
  kind : OutflowKind
  /-- What it shows, if it leaves the pool. -/
  data : Option ExitData
  deriving DecidableEq

namespace OutflowView

/-- Data is present exactly if the output leaves the pool. -/
def Consistent (o : OutflowView) : Prop := o.data.isSome = o.kind.isPublic

instance (o : OutflowView) : Decidable o.Consistent := inferInstanceAs (Decidable (_ = _))

/-- The view of an output. -/
def ofOutflow (o : Outflow) : OutflowView := ⟨o.note.hash, o.kind, o.exit?.map ExitData.ofExit⟩

theorem consistent_ofOutflow (o : Outflow) : (ofOutflow o).Consistent := by
  cases o <;> rfl

/-- Data agrees if it is present on both views or on none, and is the same where it is present. -/
theorem data_eq {o o' : OutflowView} (hpresent : o.data.isSome = o'.data.isSome)
    (hdata : ∀ d d', o.data = some d → o'.data = some d' → d = d') : o.data = o'.data := by
  cases hd : o.data with
  | none =>
    rw [hd] at hpresent
    exact (Option.isNone_iff_eq_none.mp (Option.isSome_eq_false_iff.mp hpresent.symm)).symm
  | some d =>
    rw [hd] at hpresent
    obtain ⟨d', hd'⟩ := Option.isSome_iff_exists.mp hpresent.symm
    rw [hd', hdata d d' hd hd']

end OutflowView

/-! ### Transactions -/

/-- A proved transaction. -/
@[ext] structure Transaction where
  inflow : List Spend
  outflow : List OutflowView
  fee : Amount
  proof : Groth16Proof
  /-- A commitment to the note that a counterparty creates. -/
  swap : Option Felt
  /-- What it carries for its receivers. -/
  memo : Option Memo
  deriving DecidableEq

/-- Why a transaction cannot be written. -/
inductive EncodeError where
  | tooManyInflows (count : Nat)
  | tooManyOutflows (count : Nat)
  /-- The output at an index shows data although it is plain, or shows none although it is not. -/
  | outflowData (index : Nat)
  deriving DecidableEq

/-- The report of a transaction that cannot be written. -/
def EncodeError.message : EncodeError → String
  | .tooManyInflows count => s!"Too many inflows: {count} (max 255)"
  | .tooManyOutflows count => s!"Too many outflows: {count} (max 255)"
  | .outflowData index =>
    s!"Outflow {index}: public data must be present exactly for withdrawals and migrations"

/-- Bytes of a transaction with the given counts of inputs, outputs and outputs that leave the
pool, with or without a swap and a memo of one encrypted note. -/
def estimateSize (inputs outputs publicOutputs : Nat) (hasSwap hasMemo : Bool) : Nat :=
  1 + inputs * 64 + 1 + outputs * 33 + publicOutputs * ExitData.byteLength +
    (32 + Groth16Proof.byteLength + 1) + (if hasSwap then 32 else 0) +
    (if hasMemo then encryptedNoteLength else 0)

namespace Transaction

/-- The largest count of inputs or of outputs. -/
def maxCount : Nat := 255

/-- The counts fit a byte and every output shows what its kind shows. -/
structure WellFormed (tx : Transaction) : Prop where
  inflow_le : tx.inflow.length ≤ maxCount
  outflow_le : tx.outflow.length ≤ maxCount
  consistent : ∀ o ∈ tx.outflow, o.Consistent

/-- The transaction itself, if it can be written. -/
def check (tx : Transaction) : Except EncodeError Transaction :=
  if maxCount < tx.inflow.length then .error (.tooManyInflows tx.inflow.length)
  else if maxCount < tx.outflow.length then .error (.tooManyOutflows tx.outflow.length)
  else
    match tx.outflow.findIdx? fun o => !decide o.Consistent with
    | some index => .error (.outflowData index)
    | none => .ok tx

/-- A transaction from its parts, if it can be written. -/
def make? (inflow : List Spend) (outflow : List OutflowView) (fee : Amount) (proof : Groth16Proof)
    (swap : Option Felt) (memo : Option Memo) : Except EncodeError Transaction :=
  check { inflow, outflow, fee, proof, swap, memo }

/-- Outputs that leave the pool. -/
def publicCount (tx : Transaction) : Nat := tx.outflow.countP fun o => o.kind.isPublic

/-- Bytes of the memo. -/
def memoLength (tx : Transaction) : Nat := (tx.memo.map Memo.wireLength).getD 0

/-- Bytes of the transaction. -/
def size (tx : Transaction) : Nat :=
  estimateSize tx.inflow.length tx.outflow.length tx.publicCount tx.swap.isSome false +
    tx.memoLength

/-- The bytes whose digest identifies the transaction: all parts but the memo, without counts. -/
def packed (tx : Transaction) : Bytes :=
  tx.inflow.flatMap (fun s => s.root.toBytesBE.toList ++ s.nullifier.toBytesBE.toList) ++
    tx.outflow.flatMap (fun o =>
      o.note.toBytesBE.toList ++ (o.data.map ExitData.toBytes).getD []) ++
    (tx.swap.getD 0).toBytesBE.toList ++
    tx.proof.coordinates.flatMap (fun c => c.toBytesBE.toList) ++
    tx.fee.toBytesBE.toList

/-- The digest that identifies the transaction. -/
def hash (tx : Transaction) : FixedBytes 32 := keccak256 tx.packed

/-- The content of the memo, if there is one. -/
def parseMemo (tx : Transaction) : Except MemoError (Option MemoContent) :=
  match tx.memo with
  | none => .ok none
  | some memo => memo.parse.map some

/-- The hashes of the outputs' notes. -/
def outputHashes (tx : Transaction) : List Felt := tx.outflow.map OutflowView.note

/-- The notes of the memo that a viewer can read and that are outputs of the transaction. -/
def recoverNotes (tx : Transaction) (viewer : Viewer) (tokens : List LedgerAddress) : List Note :=
  match tx.parseMemo with
  | .ok (some content) =>
    content.encryptedNotes.filterMap fun c => c.decryptExpected? viewer tokens tx.outputHashes
  | _ => []

end Transaction

end ShieldedWallet
