/-
Selection of token notes.

Fungible tokens are covered by the smallest notes first, until the amount is
reached.  Single tokens are taken by id, with no substitute.  Both selections
hand back the notes they leave over.

* `selectFungible` — the notes that cover an amount of a token;
* `selectSingles` — a note for each id asked for.

Design notes: what is left over keeps its order, with two exceptions that later
selections can see: unused notes of a fungible token move to the end in
ascending order, and the place of a single token taken out is filled by the
last note.
-/
import ShieldedWallet.Plan.Basic

namespace ShieldedWallet

/-- A total that a plan needs. -/
inductive PlanTotal where
  | externalFee
  | fee
  /-- The ether that outputs and fees take. -/
  | requiredEther
  /-- The ether of the notes chosen. -/
  | selectedEther
  /-- The amount of the notes chosen for one fungible token. -/
  | fungible
  deriving DecidableEq

/-- The total in words. -/
def PlanTotal.message : PlanTotal → String
  | .externalFee => "l1 fee"
  | .fee => "fee"
  | .requiredEther => "required ether"
  | .selectedEther => "selected ether"
  | .fungible => "erc20"

/-- Why no plan can be made. -/
inductive BuildError where
  /-- The ether at hand does not cover outputs and fees. -/
  | insufficientEther (required available deficit : Amount)
  /-- The notes of a fungible token do not cover the amount asked for. -/
  | insufficientFungible (token : LedgerAddress) (required available deficit : Amount)
  /-- There are fewer single tokens of a contract than asked for. -/
  | notEnoughSingles (token : LedgerAddress) (required available : Nat)
  /-- A single token is not at hand, or not as often as asked for. -/
  | singleNotFound (token : LedgerAddress) (tokenId : Amount)
  | overflow (total : PlanTotal)
  /-- The notes of one side cannot be totalled, or an output asked for is refused. -/
  | note (cause : NoteError)
  /-- The plan made fails the check of its own balance. -/
  | unbalanced (cause : BalanceError)
  deriving DecidableEq

/-- The report of a plan that cannot be made. -/
def BuildError.message : BuildError → String
  | .insufficientEther required available deficit =>
    "Insufficient ether: required " ++ etherText required ++ ", available " ++
      etherText available ++ ", short by " ++ etherText deficit
  | .insufficientFungible token required available deficit =>
    "Insufficient balance of token " ++ token.toText ++ ": required " ++ required.toDecimal ++
      ", available " ++ available.toDecimal ++ ", short by " ++ deficit.toDecimal
  | .notEnoughSingles token required available =>
    "Not enough NFTs of " ++ token.toText ++ s!": required {required}, available {available}"
  | .singleNotFound token tokenId =>
    "NFT " ++ tokenId.toDecimal ++ " of " ++ token.toText ++ " is not among the spendable notes"
  | .overflow total => "Total " ++ total.message ++ " exceeds 256 bits"
  | .note cause => cause.message
  | .unbalanced cause =>
    "coin selection produced an unbalanced transaction: " ++ cause.message

/-- Notes chosen and notes left over. -/
structure Selection where
  /-- The notes chosen, in the order of choice. -/
  chosen : List Utxo
  left : List Utxo
  deriving DecidableEq

/-! ### Fungible tokens -/

/-- The note holds an amount of a token. -/
def holdsFungible (token : LedgerAddress) (u : Utxo) : Bool :=
  u.asset.isFungible && u.asset.token = token

/-- The shortest run of notes from the front whose amounts, added to `gathered`, reach the amount
asked for, with the total reached and the notes behind the run. -/
def takeUntil (asked gathered : Amount) :
    List Utxo → Except BuildError (List Utxo × Amount × List Utxo)
  | [] => .ok ([], gathered, [])
  | u :: us =>
    if asked ≤ gathered then .ok ([], gathered, u :: us)
    else
      match gathered.add? u.asset.amount with
      | none => .error (.overflow .fungible)
      | some gathered => do
        let (run, total, behind) ← takeUntil asked gathered us
        return (u :: run, total, behind)

/-- The notes of a token, those of smaller amounts first. -/
def fungibleCandidates (available : List Utxo) (token : LedgerAddress) : List Utxo :=
  (available.filter (holdsFungible token)).mergeSort fun a b =>
    decide (a.asset.amount ≤ b.asset.amount)

/-- The notes that cover an amount of a token. -/
def selectFungible (available : List Utxo) (token : LedgerAddress) (asked : Amount) :
    Except BuildError Selection := do
  let others := available.filter fun u => !holdsFungible token u
  let (chosen, total, unused) ← takeUntil asked 0 (fungibleCandidates available token)
  if total < asked then throw (.insufficientFungible token asked total (asked.monus total))
  else return ⟨chosen, others ++ unused⟩

/-! ### Single tokens -/

/-- The note holds a single token of a contract. -/
def holdsSingle (token : LedgerAddress) (u : Utxo) : Bool :=
  u.asset.isSingle && u.asset.token = token

/-- The list without the element at an index, whose place the last element takes. -/
def swapRemove {α : Type} (xs : List α) (i : Nat) : List α :=
  match xs.getLast? with
  | none => xs
  | some last => (xs.set i last).dropLast

/-- A note for each id, in the order of the ids. -/
def takeSingles (token : LedgerAddress) (available : List Utxo) :
    List Amount → Except BuildError Selection
  | [] => .ok ⟨[], available⟩
  | id :: ids =>
    match available.findIdx? fun u => holdsSingle token u && u.asset.tokenId = id with
    | none => .error (.singleNotFound token id)
    | some i =>
      match available[i]? with
      | none => .error (.singleNotFound token id)
      | some u => do
        let s ← takeSingles token (swapRemove available i) ids
        return { s with chosen := u :: s.chosen }

/-- A note for each id asked for, if the contract's tokens at hand are at least as many. -/
def selectSingles (available : List Utxo) (token : LedgerAddress) (ids : List Amount) :
    Except BuildError Selection :=
  let held := available.countP (holdsSingle token)
  if held < ids.length then .error (.notEnoughSingles token ids.length held)
  else takeSingles token available ids

end ShieldedWallet
