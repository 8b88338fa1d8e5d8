/-
Accounts: keys, signatures and viewers.

A private key of 32 bytes yields two scalars: the signing scalar, which is the
key itself, and the viewing scalar, which is derived from it.  The multiples of
the generator by them are the signing point and the viewing point.  An
account's address is the pair of

* the spending key, the hash of the signing point and the viewing scalar, and
* the viewing point.

A viewer holds the viewing scalar and the signing point only: it finds notes
and voids them, but does not sign.

* `Signature.verify` — the equation `s G = R + h A` that a signature satisfies,
  with `h` the challenge of the nonce point, the signing point and the message;
* `Account.sign` — the signature whose nonce is derived from key and message.

Design notes: an account is its private key, and all else is computed from it,
so two accounts are equal exactly if their keys are.
-/
import ShieldedWallet.Address.Shielded
import ShieldedWallet.Hash.Blake3
import ShieldedWallet.Hash.Poseidon.Sponge

namespace ShieldedWallet

/-! ### Signatures -/

/-- A signature on a field element: a nonce point and a scalar. -/
@[ext] structure Signature where
  r : Point
  s : Scalar
  deriving DecidableEq

/-- The challenge of a nonce point, a signing point and a message. -/
def Signature.challenge (r signingPoint : Point) (message : Felt) : Scalar :=
  Scalar.ofFelt (poseidon [r.x, r.y, signingPoint.x, signingPoint.y, message])

/-- The signature answers its challenge. -/
def Signature.verify (sig : Signature) (message : Felt) (signingPoint : Point) : Bool :=
  let h := challenge sig.r signingPoint message
  decide (Point.base sig.s = sig.r + signingPoint.scale h)

/-! ### Viewers -/

/-- The keys that find notes and void them. -/
@[ext] structure Viewer where
  /-- The scalar behind the viewing point of the address; also the seed of nullifiers. -/
  viewingScalar : Scalar
  signingPoint : Point
  deriving DecidableEq

namespace Viewer

/-- The point that notes for this viewer are encrypted for. -/
def viewingPoint (v : Viewer) : Point := Point.base v.viewingScalar

/-- The key that commits to the signing point and the viewing scalar. -/
def spendingKey (v : Viewer) : Felt :=
  poseidon [v.signingPoint.x, v.signingPoint.y, v.viewingScalar.toFelt]

/-- The address whose notes the viewer finds. -/
def address (v : Viewer) : ShieldedAddress := ⟨v.spendingKey, v.viewingPoint⟩

end Viewer

/-! ### Accounts -/

/-- The keys of a spender. -/
@[ext] structure Account where
  privateKey : FixedBytes 32
  deriving DecidableEq

namespace Account

/-- The context under which the viewing scalar is derived. -/
def viewingContext : String := "veil 2024 viewing key derivation"

/-- The context under which nonces are derived. -/
def nonceContext : String := "veil 2024 eddsa nonce"

/-- The scalar that signs. -/
def signingScalar (a : Account) : Scalar := .ofBytes a.privateKey.toList

/-- The scalar that views. -/
def viewingScalar (a : Account) : Scalar :=
  .ofBytes (Blake3.deriveKey viewingContext a.privateKey.toList 32).toList

/-- The point that signatures are checked against. -/
def signingPoint (a : Account) : Point := Point.base a.signingScalar

/-- The viewer of the account. -/
def viewer (a : Account) : Viewer := ⟨a.viewingScalar, a.signingPoint⟩

/-- The address of the account. -/
def address (a : Account) : ShieldedAddress := a.viewer.address

/-- The nonce with which the account signs a message. -/
def nonce (a : Account) (message : Felt) : Scalar :=
  let material := a.privateKey.toList ++ message.toBytesBE.toList
  .ofBytes (Blake3.deriveKey nonceContext material 64).toList

/-- The signature of the account on a message. -/
def sign (a : Account) (message : Felt) : Signature :=
  let k := a.nonce message
  let r := Point.base k
  ⟨r, k + Signature.challenge r a.signingPoint message * a.signingScalar⟩

end Account

end ShieldedWallet
