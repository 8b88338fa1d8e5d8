/-
Shielding: from a plan to a proved transaction.

The inclusion proofs of the inputs are fetched, the witness is built and
signed, an output may be encrypted for its owner as the memo, the key files are
resolved, and the prover is run.  Its public signals are compared with those of
the witness before the transaction is put together.

* `Desk.shield` — the transaction, or the first failure in that order;
* `checkSignals` — accepts equal lists of signals and reports the first place
  where they differ.

Design notes: everything outside is a field of the desk or an argument: the
source of inclusion proofs, the key files, the prover, and the ephemeral scalar
of the memo.
-/
import ShieldedWallet.Proving.Inclusion
import ShieldedWallet.Proving.Prover

namespace ShieldedWallet

/-- Why a plan is not turned into a transaction. -/
inductive ShieldError where
  | inclusion (cause : InclusionError)
  /-- The key files are not at hand. -/
  | keys (cause : KeyError)
  | prover (reason : String)
  /-- The prover committed to other public signals. -/
  | signalMismatch (index : Nat) (expected got : String)
  | noSuchOutput (index : Nat)
  /-- An input is not the account's, or the output cannot be encrypted. -/
  | note (cause : NoteError)
  | encode (cause : EncodeError)
  deriving DecidableEq

/-- The report of a plan that is not turned into a transaction. -/
def ShieldError.message : ShieldError → String
  | .inclusion cause => cause.message
  | .keys cause => cause.message
  | .prover reason => "Prover failed: " ++ reason
  | .signalMismatch index expected got =>
    s!"Public signal {index} mismatch: expected " ++ expected ++ ", prover returned " ++ got
  | .noSuchOutput index => s!"Output {index} does not exist"
  | .note cause => cause.message
  | .encode cause => cause.message

/-! ### Signals -/

/-- Stands for a signal that one list has and the other has not. -/
def missingSignal : String := "<missing>"

/-- Compares lists of signals whose first elements have the given index. -/
def checkSignalsFrom (index : Nat) : (expected got : List String) → Except ShieldError Unit
  | [], [] => .ok ()
  | e :: _, [] => .error (.signalMismatch index e missingSignal)
  | [], g :: _ => .error (.signalMismatch index missingSignal g)
  | e :: expected, g :: got =>
    if e = g then checkSignalsFrom (index + 1) expected got
    else .error (.signalMismatch index e g)

/-- Accepts equal lists, and otherwise reports the first place where they differ. -/
def checkSignals (expected got : List String) : Except ShieldError Unit :=
  checkSignalsFrom 0 expected got

/-! ### The desk -/

/-- All that shielding draws on. -/
structure Desk where
  account : Account
  /-- The tokens that memos can refer to. -/
  tokens : List LedgerAddress
  /-- Where inclusion proofs come from. -/
  inclusion : ProofSource
  /-- The key files for a shape. -/
  keys : (inputs outputs : Nat) → Except KeyError KeyFiles
  prover : Prover

namespace Desk

/-- The output with an index, encrypted for its owner as a memo; no memo without an index. -/
def memo (d : Desk) (plan : Plan) (encryptTo : Option Nat) (ephemeral : Scalar) :
    Except ShieldError (Option Memo) :=
  match encryptTo with
  | none => .ok none
  | some index =>
    match plan.outflow[index]? with
    | none => .error (.noSuchOutput index)
    | some o =>
      match o.note.encrypt d.tokens ephemeral with
      | .error cause => .error (.note cause)
      | .ok c => .ok (some (.note c))

/-- The proved transaction of a plan, with the output at an index encrypted as its memo. -/
def shield (d : Desk) (plan : Plan) (encryptTo : Option Nat) (ephemeral : Scalar) :
    Except ShieldError Transaction := do
  let proofs ← (proofsFor d.inclusion plan.inflow).mapError .inclusion
  let (witness, inflow) ← (Witness.build d.account plan proofs).mapError .note
  let memo ← d.memo plan encryptTo ephemeral
  let keys ← (d.keys plan.inflow.length plan.outflow.length).mapError .keys
  let signals := witness.toText
  let proved ← ((d.prover signals keys).toExcept).mapError .prover
  checkSignals signals.publicSignals proved.publicSignals
  (Transaction.make? inflow (plan.outflow.map OutflowView.ofOutflow) plan.fee proved.proof plan.swap
    memo).mapError .encode

end Desk

end ShieldedWallet
