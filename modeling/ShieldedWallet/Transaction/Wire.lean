/-
Transactions in bytes.

    count (1)  root (32) nullifier (32) ...
    count (1)  note (32) kind (1) [exit data (168)] ...
    fee (32)  proof (256)  switch (1)  [swap (32)]
    [encrypted note (81) | length (2) payload]

The switch byte says which of the parts at the end are there.  Numbers are
written most significant byte first, and the rows of the proof's second point
with their entries exchanged.

* `Transaction.encode` — the bytes of a transaction;
* `Transaction.decode` — the transaction that bytes write; field elements have
  to be least residues, kinds and switches known ones, and nothing may be left.
-/
import ShieldedWallet.Transaction.Basic
import ShieldedWallet.Transaction.Reader

namespace ShieldedWallet

/-! ### Writing -/

namespace Spend

/-- Root and nullifier. -/
def encode (s : Spend) : Bytes := s.root.toBytesBE.toList ++ s.nullifier.toBytesBE.toList

end Spend

namespace OutflowView

/-- Note hash, kind, and the data if there is any. -/
def encode (o : OutflowView) : Bytes :=
  o.note.toBytesBE.toList ++ o.kind.code :: (o.data.map ExitData.toBytes).getD []

end OutflowView

namespace Groth16Proof

/-- The coordinates, with the entries of each row exchanged. -/
def encode (p : Groth16Proof) : Bytes :=
  p.ax.toBytesBE.toList ++ p.ay.toBytesBE.toList ++ p.b01.toBytesBE.toList ++
    p.b00.toBytesBE.toList ++ p.b11.toBytesBE.toList ++ p.b10.toBytesBE.toList ++
    p.cx.toBytesBE.toList ++ p.cy.toBytesBE.toList

end Groth16Proof

namespace Memo

/-- The encrypted note, or the payload behind its length. -/
def encode : Memo → Bytes
  | .note c => c.toList
  | .payload p => Bytes.ofNatBE 2 p.bytes.length ++ p.bytes

end Memo

namespace Transaction

/-- Bit of the switch byte: there is a swap. -/
def swapBit : UInt8 := 1

/-- Bit of the switch byte: the memo is one encrypted note. -/
def noteBit : UInt8 := 2

/-- Bit of the switch byte: the memo is a payload. -/
def payloadBit : UInt8 := 4

/-- Which of the parts at the end are there. -/
def switch (tx : Transaction) : UInt8 :=
  (if tx.swap.isSome then swapBit else 0) |||
    match tx.memo with
    | none => 0
    | some (.note _) => noteBit
    | some (.payload _) => payloadBit

/-- The bytes of a transaction. -/
def encode (tx : Transaction) : Bytes :=
  UInt8.ofNat tx.inflow.length :: tx.inflow.flatMap Spend.encode ++
    UInt8.ofNat tx.outflow.length :: tx.outflow.flatMap OutflowView.encode ++
    tx.fee.toBytesBE.toList ++ tx.proof.encode ++
    tx.switch :: (tx.swap.map fun s => s.toBytesBE.toList).getD [] ++
    (tx.memo.map Memo.encode).getD []

/-! ### Reading -/

/-- Root and nullifier. -/
def readSpend : Reader Spend := do
  let root ← Reader.felt
  let nullifier ← Reader.felt
  return { nullifier, root }

/-- The data of an output that leaves the pool. -/
def readExitData : Reader ExitData := do
  let destination ← Reader.address
  let eth ← Reader.amount
  let token ← Reader.address
  let amount ← Reader.amount
  let tokenId ← Reader.amount
  let fee ← Reader.amount
  return { destination, eth, token, amount, tokenId, fee }

/-- The kind of an output. -/
def readKind : Reader OutflowKind := do
  let position ← Reader.offset
  let code ← Reader.byte
  match OutflowKind.ofCode? code with
  | some kind => return kind
  | none => throw (.unknownOutflowKind position code)

/-- Note hash, kind, and the data if the output leaves the pool. -/
def readOutflow : Reader OutflowView := do
  let note ← Reader.felt
  let kind ← readKind
  if kind.isPublic then
    let data ← readExitData
    return { note, kind, data := some data }
  else return { note, kind, data := none }

/-- The coordinates of a proof. -/
def readProof : Reader Groth16Proof := do
  let ax ← Reader.amount
  let ay ← Reader.amount
  let b01 ← Reader.amount
  let b00 ← Reader.amount
  let b11 ← Reader.amount
  let b10 ← Reader.amount
  let cx ← Reader.amount
  let cy ← Reader.amount
  return { ax, ay, b00, b01, b10, b11, cx, cy }

/-- A switch byte without unknown bits that announces at most one memo. -/
def readSwitch : Reader UInt8 := do
  let switch ← Reader.byte
  let memoBits := noteBit ||| payloadBit
  if switch &&& ~~~ (swapBit ||| memoBits) ≠ 0 ∨ switch &&& memoBits = memoBits then
    throw (.unknownSwitchBits switch)
  else return switch

/-- The swap, if the switch announces one. -/
def readSwap (switch : UInt8) : Reader (Option Felt) := do
  if switch &&& swapBit ≠ 0 then
    let swap ← Reader.felt
    return some swap
  else return none

/-- A payload behind its length. -/
def readPayload : Reader MemoPayload := do
  let length ← Reader.short
  let b ← Reader.bytes length.toNat
  return ⟨b.toList, by rw [b.length_eq]; exact length.toNat_lt⟩

/-- The memo that the switch announces. -/
def readMemo (switch : UInt8) : Reader (Option Memo) := do
  if switch &&& noteBit ≠ 0 then
    let note ← Reader.bytes encryptedNoteLength
    return some (.note note)
  else if switch &&& payloadBit ≠ 0 then
    let payload ← readPayload
    return some (.payload payload)
  else return none

/-- A transaction, with nothing behind it. -/
def read : Reader Transaction := do
  let inputs ← Reader.byte
  let inflow ← Reader.times readSpend inputs.toNat
  let outputs ← Reader.byte
  let outflow ← Reader.times readOutflow outputs.toNat
  let fee ← Reader.amount
  let proof ← readProof
  let switch ← readSwitch
  let swap ← readSwap switch
  let memo ← readMemo switch
  Reader.finish
  return { inflow, outflow, fee, proof, swap, memo }

/-- The transaction that bytes write. -/
def decode (bytes : Bytes) : Except DecodeError Transaction :=
  (read.run ⟨0, bytes⟩).map Prod.fst

end Transaction

end ShieldedWallet
