/-
Builders: balanced plans from notes at hand and outputs asked for.

A plan is built in six steps: fungible tokens are covered by the smallest notes
first; single tokens are taken by id; token surplus goes back as change; the
fee is priced by the size of the transaction with one output reserved; ether is
covered by the largest ether-only notes first, the fee being priced anew for
each; ether surplus goes back as change.  At the end the balance is checked.

* `Builder.build` — the plan of a builder, or why there is none;
* `SizeEstimate` — the size that prices the fee: `wireSize` is that of the
  transaction on the wire, `fixedSize` a constant.

Design notes: change notes need salts that nobody can guess.  They are handed
to `build` from outside, by the number of the change note, so that a plan is a
function of the builder and the salts.
-/
import ShieldedWallet.Plan.Selection
import ShieldedWallet.Transaction.Basic

namespace ShieldedWallet

/-- The size of a transaction by its counts of inputs, outputs and outputs that leave the pool, and
by whether it has a swap and a memo. -/
abbrev SizeEstimate := (inputs outputs publicOutputs : Nat) → (hasSwap hasMemo : Bool) → Nat

/-- The size on the wire. -/
def wireSize : SizeEstimate := estimateSize

/-- The same size for every transaction. -/
def fixedSize (bytes : Nat) : SizeEstimate := fun _ _ _ _ _ => bytes

/-- Notes at hand, outputs asked for, and how to price them. -/
structure Builder where
  /-- Who receives change. -/
  changeTo : ShieldedAddress
  /-- The fee for each byte. -/
  rate : Amount
  /-- The size that prices the fee. -/
  estimate : SizeEstimate
  /-- A commitment to the note that a counterparty creates. -/
  swap : Option Felt
  notes : List Utxo
  requests : List Outflow

/-- A new plain output. -/
def plainOutput (owner : ShieldedAddress) (salt : Felt) (asset : Asset) : Outflow :=
  .plain ⟨⟨owner, salt, asset⟩, .nonIncluded⟩

/-- A note that leaves the pool belongs to nobody in it. -/
def newExit (salt : Felt) (asset : Asset) (destination : LedgerAddress) (fee : Amount) : Exit :=
  ⟨⟨.null, salt, asset⟩, destination, fee, .nonIncluded⟩

namespace Builder

/-- A builder without notes or outputs, at no fee. -/
def new (changeTo : ShieldedAddress) (estimate : SizeEstimate) (swap : Option Felt) : Builder :=
  { changeTo, rate := 0, estimate, swap, notes := [], requests := [] }

/-- Sets the fee for each byte. -/
def setRate (b : Builder) (rate : Amount) : Builder := { b with rate }

/-- Adds a note at hand. -/
def provide (b : Builder) (note : Utxo) : Builder := { b with notes := b.notes ++ [note] }

/-- Asks for an output. -/
def send (b : Builder) (outflow : Outflow) : Builder :=
  { b with requests := b.requests ++ [outflow] }

/-- Asks for an output of ether. -/
def sendEther (b : Builder) (salt : Felt) (eth : Amount) (receiver : ShieldedAddress) : Builder :=
  b.send (plainOutput receiver salt (.ether eth))

/-- Asks for an output of a fungible token. -/
def sendFungible (b : Builder) (salt : Felt) (token : LedgerAddress) (amount : Amount)
    (receiver : ShieldedAddress) : Except BuildError Builder :=
  match Asset.fungible token amount 0 with
  | .error cause => .error (.note cause)
  | .ok asset => .ok (b.send (plainOutput receiver salt asset))

/-- Asks for an output of a single token. -/
def sendSingle (b : Builder) (salt : Felt) (token : LedgerAddress) (tokenId : Amount)
    (receiver : ShieldedAddress) : Except BuildError Builder :=
  match Asset.single token tokenId 0 with
  | .error cause => .error (.note cause)
  | .ok asset => .ok (b.send (plainOutput receiver salt asset))

/-- Asks for a withdrawal to the base ledger. -/
def withdraw (b : Builder) (salt : Felt) (asset : Asset) (destination : LedgerAddress)
    (fee : Amount) : Builder :=
  b.send (.withdrawal (newExit salt asset destination fee))

/-- Asks for a migration to another pool. -/
def migrate (b : Builder) (salt : Felt) (asset : Asset) (destination : LedgerAddress)
    (fee : Amount) : Builder :=
  b.send (.migration (newExit salt asset destination fee))

/-! ### Token notes -/

/-- Covers the amount of each fungible token in turn. -/
def selectFungibles (available : List Utxo) : TokenMap Amount → Except BuildError Selection
  | [] => .ok ⟨[], available⟩
  | (token, asked) :: rest => do
    let s ← selectFungible available token asked
    let t ← selectFungibles s.left rest
    return { t with chosen := s.chosen ++ t.chosen }

/-- Takes the ids of each contract in turn. -/
def selectAllSingles (available : List Utxo) : TokenMap (List Amount) → Except BuildError Selection
  | [] => .ok ⟨[], available⟩
  | (token, ids) :: rest => do
    let s ← selectSingles available token ids
    let t ← selectAllSingles s.left rest
    return { t with chosen := s.chosen ++ t.chosen }

/-- Covers all tokens that outputs ask for. -/
def selectTokens (available : List Utxo) (asked : Holdings) : Except BuildError Selection := do
  let s ← selectFungibles available asked.fungible
  let t ← selectAllSingles s.left asked.single
  return { t with chosen := s.chosen ++ t.chosen }

/-- The surplus of each fungible token over what is asked for. -/
def fungibleSurplus (picked asked : Holdings) : List Asset :=
  picked.fungible.filterMap fun (token, amount) =>
    (Asset.fungible token (amount.monus (asked.amountOf token)) 0).toOption

/-- The single tokens picked that are not asked for. -/
def singleSurplus (picked asked : Holdings) : List Asset :=
  picked.single.flatMap fun (token, ids) =>
    (ids.filter fun id => id ∉ asked.idsOf token).filterMap fun id =>
      (Asset.single token id 0).toOption

/-- The surplus of the notes chosen over what is asked for. -/
def tokenSurplus (chosen : List Utxo) (asked : Holdings) : Except BuildError (List Asset) := do
  let picked ← (Holdings.ofNotes (chosen.map Utxo.note)).mapError .note
  return fungibleSurplus picked asked ++ singleSurplus picked asked

/-! ### Ether -/

/-- The fee and the ether that a plan of a given count of inputs takes. -/
structure Price where
  fee : Amount
  /-- The ether of outputs and all fees. -/
  required : Amount
  deriving DecidableEq

/-- Prices a plan whose size is given. -/
def priceOf (rate sentEther externalFee : Amount) (size : Nat) : Except BuildError Price :=
  match rate.mul? size with
  | none => .error (.overflow .fee)
  | some fee =>
    match Plan.spentEther? sentEther fee externalFee with
    | none => .error (.overflow .requiredEther)
    | some required => .ok ⟨fee, required⟩

/-- The ether-only notes chosen, the fee they are priced at, and the surplus. -/
structure EtherChoice where
  chosen : List Utxo
  fee : Amount
  surplus : Amount
  deriving DecidableEq

/-- Takes notes from the front of the pool until the ether gathered covers the price, which depends
on the count of inputs. -/
def coverEther (price : Nat → Except BuildError Price) :
    (pool : List Utxo) → (inputs : Nat) → (gathered : Amount) → Except BuildError EtherChoice
  | [], inputs, gathered => do
    let p ← price inputs
    if p.required ≤ gathered then return ⟨[], p.fee, gathered.monus p.required⟩
    else throw (.insufficientEther p.required gathered (p.required.monus gathered))
  | u :: pool, inputs, gathered => do
    let p ← price inputs
    if p.required ≤ gathered then return ⟨[], p.fee, gathered.monus p.required⟩
    else
      match gathered.add? u.asset.eth with
      | none => throw (.overflow .selectedEther)
      | some gathered => do
        let c ← coverEther price pool (inputs + 1) gathered
        return { c with chosen := u :: c.chosen }

/-- The ether-only notes, those of larger amounts first; of two equal ones the later first. -/
def etherPool (available : List Utxo) : List Utxo :=
  ((available.filter fun u => u.asset.isEtherOnly).mergeSort fun a b =>
    decide (a.asset.eth ≤ b.asset.eth)).reverse

/-- Change notes for a list of assets, their salts counted from `first`. -/
def changeOutputs (changeTo : ShieldedAddress) (salt : Nat → Felt) (first : Nat)
    (assets : List Asset) : List Outflow :=
  assets.mapIdx fun i asset => plainOutput changeTo (salt (first + i)) asset

/-! ### The plan -/

/-- The plan before its balance is checked. -/
def draft (b : Builder) (salt : Nat → Felt) : Except BuildError Plan := do
  let asked ← (Holdings.ofNotes (b.requests.map Outflow.note)).mapError .note
  let tokens ← selectTokens b.notes asked
  let surplus ← tokenSurplus tokens.chosen asked
  let outflow := b.requests ++ changeOutputs b.changeTo salt 0 surplus
  match externalFees? outflow with
  | none => throw (.overflow .externalFee)
  | some externalFee =>
    match Amount.sum? (tokens.chosen.map fun u => u.asset.eth) with
    | none => throw (.overflow .selectedEther)
    | some gathered =>
      let size (inputs : Nat) :=
        b.estimate inputs (outflow.length + 1) (publicCount outflow) b.swap.isSome false
      let price (inputs : Nat) := priceOf b.rate asked.eth externalFee (size inputs)
      let ether ← coverEther price (etherPool tokens.left) tokens.chosen.length gathered
      let change := if ether.surplus = 0 then [] else [Asset.ether ether.surplus]
      return { inflow := tokens.chosen ++ ether.chosen
               outflow := outflow ++ changeOutputs b.changeTo salt surplus.length change
               swap := b.swap
               fee := ether.fee }

/-- The plan of a builder, with the salts of change notes drawn from `salt`. -/
def build (b : Builder) (salt : Nat → Felt) : Except BuildError Plan := do
  let plan ← b.draft salt
  match plan.checkBalance with
  | .error cause => throw (.unbalanced cause)
  | .ok () => return plan

end Builder

end ShieldedWallet
