/-
Plans: transactions before they are proved.

A plan names the notes to spend, the outputs, the fee and perhaps a swap.  It
is balanced if, in exact arithmetic, the ether of the inputs is that of the
outputs with the fee and the fees on the base ledger, and for each token the
amounts and the ids on both sides agree.  A swap takes no part in the balance.

* `Plan.checkBalance` — accepts a balanced plan and says what is off in any
  other: ether first, then token by token in ascending order, amounts before
  ids.
-/
import ShieldedWallet.Holdings
import ShieldedWallet.Note.Outflow
import ShieldedWallet.Text.Ether

namespace ShieldedWallet

/-- A transaction before it is proved. -/
structure Plan where
  inflow : List Utxo
  outflow : List Outflow
  /-- A commitment to the note that a counterparty creates. -/
  swap : Option Felt
  fee : Amount
  deriving DecidableEq

/-- Why a plan is not balanced. -/
inductive BalanceError where
  /-- The ether of the inputs is not that of outputs and fees. -/
  | ether (inflow outflow fee externalFee : Amount)
  /-- The amounts of a fungible token differ. -/
  | fungible (token : LedgerAddress) (inflow outflow : Amount)
  /-- The ids of a contract's single tokens differ. -/
  | single (token : LedgerAddress)
  /-- The notes of one side cannot be totalled. -/
  | note (cause : NoteError)
  /-- The ether of outputs and fees exceeds 256 bits. -/
  | overflow
  deriving DecidableEq

/-- The report of a plan that is not balanced. -/
def BalanceError.message : BalanceError → String
  | .ether inflow outflow fee externalFee =>
    "Ether mismatch: inflow " ++ etherText inflow ++ ", outflow " ++ etherText outflow ++
      ", fee " ++ etherText fee ++ ", l1 fee " ++ etherText externalFee
  | .fungible token inflow outflow =>
    "Token " ++ token.toText ++ " mismatch: inflow " ++ inflow.toDecimal ++ ", outflow " ++
      outflow.toDecimal
  | .single token => "NFT ids of " ++ token.toText ++ " differ between inflow and outflow"
  | .note cause => cause.message
  | .overflow => "Ether spent by the outflow exceeds 256 bits"

/-- The fees on the base ledger of a list of outputs, if they fit 256 bits. -/
def externalFees? (outflow : List Outflow) : Option Amount :=
  Amount.sum? (outflow.map Outflow.externalFee)

/-- Outputs that leave the pool. -/
def publicCount (outflow : List Outflow) : Nat := outflow.countP fun o => o.kind.isPublic

/-- Ascending order of amounts. -/
def ascending (ids : List Amount) : List Amount := ids.mergeSort fun a b => decide (a ≤ b)

namespace Plan

/-- The fees on the base ledger, or the largest amount where they do not fit. -/
def externalFee (p : Plan) : Amount := (externalFees? p.outflow).getD .max

/-- Outputs that leave the pool. -/
def publicCount (p : Plan) : Nat := ShieldedWallet.publicCount p.outflow

/-- The totals of the inputs. -/
def inflowHoldings (p : Plan) : Except NoteError Holdings :=
  Holdings.ofNotes (p.inflow.map Utxo.note)

/-- The totals of the outputs. -/
def outflowHoldings (p : Plan) : Except NoteError Holdings :=
  Holdings.ofNotes (p.outflow.map Outflow.note)

/-- Both sides hold the same amount and the same ids of a token. -/
def checkToken (inflow outflow : Holdings) (token : LedgerAddress) : Except BalanceError Unit :=
  if inflow.amountOf token ≠ outflow.amountOf token then
    .error (.fungible token (inflow.amountOf token) (outflow.amountOf token))
  else if ascending (inflow.idsOf token) ≠ ascending (outflow.idsOf token) then
    .error (.single token)
  else .ok ()

/-- Both sides hold the same of each token in a list. -/
def checkTokens (inflow outflow : Holdings) : List LedgerAddress → Except BalanceError Unit
  | [] => .ok ()
  | token :: rest => do
    checkToken inflow outflow token
    checkTokens inflow outflow rest

/-- The tokens that either side holds, ascending. -/
def heldTokens (inflow outflow : Holdings) : List LedgerAddress :=
  ((inflow.tokens ++ outflow.tokens).mergeSort (fun a b => decide (a ≤ b))).eraseReps

/-- The ether that outputs and fees take, if it fits 256 bits. -/
def spentEther? (outflow fee externalFee : Amount) : Option Amount :=
  (outflow.add? fee).bind fun v => v.add? externalFee

/-- The plan is balanced. -/
def checkBalance (p : Plan) : Except BalanceError Unit := do
  let inflow ← p.inflowHoldings.mapError .note
  let outflow ← p.outflowHoldings.mapError .note
  match externalFees? p.outflow with
  | none => throw .overflow
  | some externalFee =>
    match spentEther? outflow.eth p.fee externalFee with
    | none => throw .overflow
    | some spent =>
      if spent ≠ inflow.eth then throw (.ether inflow.eth outflow.eth p.fee externalFee)
      else checkTokens inflow outflow (heldTokens inflow outflow)

end Plan

end ShieldedWallet
