/-
Outputs of a transaction.

A plain output stays in the pool.  A withdrawal leaves it for the base ledger
and a migration for another pool; both name a destination on the base ledger
and pay a fee there, and both show their asset.

* `Exit.claimBytes` — the 200 bytes that the base ledger's contract parses to
  pay out a withdrawal, and `Exit.claimHash` their digest;
* `OutflowKind.ofCode?` — reads exactly the codes that `OutflowKind.code`
  writes.
-/
import ShieldedWallet.Note.Basic

namespace ShieldedWallet

/-- The three kinds of output. -/
inductive OutflowKind where
  /-- Stays in the pool. -/
  | plain
  /-- Leaves for the base ledger. -/
  | withdrawal
  /-- Leaves for another pool. -/
  | migration
  deriving DecidableEq

namespace OutflowKind

/-- The code of a kind. -/
def code : OutflowKind → UInt8
  | .plain => 0
  | .withdrawal => 1
  | .migration => 2

/-- The kind with a given code. -/
def ofCode? (b : UInt8) : Option OutflowKind :=
  if b = 0 then some .plain
  else if b = 1 then some .withdrawal
  else if b = 2 then some .migration
  else none

theorem ofCode?_code (k : OutflowKind) : ofCode? k.code = some k := by
  cases k <;> rfl

theorem ofCode?_eq_some {b : UInt8} {k : OutflowKind} (h : ofCode? b = some k) : b = k.code := by
  unfold ofCode? at h
  split at h
  · cases h; assumption
  · split at h
    · cases h; assumption
    · split at h
      · cases h; assumption
      · cases h

/-- Plain outputs stay private. -/
def isPublic (k : OutflowKind) : Bool := k ≠ .plain

end OutflowKind

/-- A note that leaves the pool. -/
@[ext] structure Exit where
  note : Note
  /-- Who receives it on the base ledger. -/
  destination : LedgerAddress
  /-- The fee paid there, beside the fee of the transaction. -/
  fee : Amount
  status : NoteStatus
  deriving DecidableEq

namespace Exit

/-- Note hash, destination, ether, token, amount, token id and fee, each in its full width. -/
def claimBytes (e : Exit) : Bytes :=
  e.note.hash.toBytesBE.toList ++ e.destination.toBytes.toList ++
    e.note.asset.eth.toBytesBE.toList ++ e.note.asset.token.toBytes.toList ++
    e.note.asset.amount.toBytesBE.toList ++ e.note.asset.tokenId.toBytesBE.toList ++
    e.fee.toBytesBE.toList

@[simp] theorem length_claimBytes (e : Exit) : e.claimBytes.length = 200 := by
  simp [claimBytes]

/-- The digest under which the base ledger knows the claim. -/
def claimHash (e : Exit) : FixedBytes 32 := keccak256 e.claimBytes

end Exit

/-- An output of a transaction. -/
inductive Outflow where
  | plain (utxo : Utxo)
  | withdrawal (exit : Exit)
  | migration (exit : Exit)
  deriving DecidableEq

namespace Outflow

/-- The note of the output. -/
def note : Outflow → Note
  | .plain u => u.note
  | .withdrawal e => e.note
  | .migration e => e.note

/-- The asset of the output's note. -/
def asset (o : Outflow) : Asset := o.note.asset

/-- Where the output's note stands. -/
def status : Outflow → NoteStatus
  | .plain u => u.status
  | .withdrawal e => e.status
  | .migration e => e.status

/-- The kind of the output. -/
def kind : Outflow → OutflowKind
  | .plain _ => .plain
  | .withdrawal _ => .withdrawal
  | .migration _ => .migration

/-- The part of the output that is shown, unless it is plain. -/
def exit? : Outflow → Option Exit
  | .plain _ => none
  | .withdrawal e => some e
  | .migration e => some e

/-- The fee paid on the base ledger; plain outputs pay none. -/
def externalFee : Outflow → Amount
  | .plain _ => 0
  | .withdrawal e => e.fee
  | .migration e => e.fee

end Outflow

end ShieldedWallet
