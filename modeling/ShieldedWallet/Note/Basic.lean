/-
Notes, the units of value in the pool.

A note binds an asset to its owner under a salt.  Its hash is taken in two
stages: the first over the ether, the owner's keys and the salt, the second
over the outcome of the first and the token position.

* `Note.hash` — the commitment that the pool holds of a note;
* `Note.innerInputs`, `Note.outerInputs` — the two lists that are hashed;
* `Utxo.nullifier` — the value that voids a note at a leaf of the pool's tree,
  which only the owner's viewing scalar yields.

Design notes: amounts enter the field modulo its order, so notes that differ
in an amount by a multiple of the order share a hash.
-/
import ShieldedWallet.Account
import ShieldedWallet.Asset

namespace ShieldedWallet

/-- An asset that an owner holds under a salt. -/
@[ext] structure Note where
  /-- Who may spend the note. -/
  owner : ShieldedAddress
  /-- Tells apart notes of one owner and asset. -/
  salt : Felt
  /-- What the note is worth. -/
  asset : Asset
  deriving DecidableEq

namespace Note

/-- The elements that the first stage of the hash is taken over. -/
def innerInputs (n : Note) : List Felt :=
  [n.asset.eth.toFelt, n.owner.spendingKey, n.salt, n.owner.viewingKey.x, n.owner.viewingKey.y]

/-- The elements that the second stage is taken over, given the outcome of the first. -/
def outerInputs (n : Note) (inner : Felt) : List Felt :=
  [inner, n.asset.token.toFelt, n.asset.amount.toFelt, n.asset.tokenId.toFelt]

/-- The commitment to the note. -/
def hash (n : Note) : Felt := poseidon (n.outerInputs (poseidon n.innerInputs))

end Note

/-- Where a note stands in its life; whoever stores notes moves them on. -/
inductive NoteStatus where
  | nonIncluded
  | unspent
  | spending
  | spent
  | waitingFinalization
  | withdrawable
  | transferred
  | withdrawn
  deriving DecidableEq

namespace NoteStatus

/-- All states, in the order of their codes. -/
def all : List NoteStatus :=
  [.nonIncluded, .unspent, .spending, .spent, .waitingFinalization, .withdrawable, .transferred,
   .withdrawn]

/-- The code of a state. -/
def code : NoteStatus → Nat
  | .nonIncluded => 0
  | .unspent => 1
  | .spending => 2
  | .spent => 3
  | .waitingFinalization => 4
  | .withdrawable => 5
  | .transferred => 6
  | .withdrawn => 7

/-- The state with a given code. -/
def ofCode? (code : Nat) : Option NoteStatus := all[code]?

theorem ofCode?_code (s : NoteStatus) : ofCode? s.code = some s := by
  cases s <;> rfl

end NoteStatus

/-- A note that can be spent, now or later. -/
@[ext] structure Utxo where
  note : Note
  /-- Where it stands. -/
  status : NoteStatus
  deriving DecidableEq

namespace Utxo

/-- The asset of the note. -/
def asset (u : Utxo) : Asset := u.note.asset

/-- The elements whose hash voids the note at a leaf. -/
def nullifierInputs (seed : Scalar) (leaf : UInt64) : List Felt :=
  [seed.toFelt, Felt.ofNat leaf.toNat]

/-- The value that voids the note at a leaf, if the seed is the owner's viewing scalar. -/
def nullifier (u : Utxo) (seed : Scalar) (leaf : UInt64) : Except NoteError Felt :=
  if Point.base seed = u.note.owner.viewingKey then .ok (poseidon (nullifierInputs seed leaf))
  else .error .notOwner

end Utxo

end ShieldedWallet
