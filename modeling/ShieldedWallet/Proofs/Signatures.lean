/-
Which signatures verify.

A signature is checked by an equation between multiples of the generator.  If
nonce point and signing point are such multiples themselves, the equation is
one between scalars, and it has one solution for each nonce.

* `Signature.answer` — the solution: the nonce and the challenge times the key;
* `Signature.verify_base_iff` — the answer verifies, and nothing else does;
* `Account.verify_sign` — the account's own signatures verify;
* `Account.verify_iff_answer` — under an account's signing point each message and
  nonce have one scalar that verifies, so a signature cannot be changed into
  another one by its scalar.

Design notes: the challenge is a hash reduced modulo the order of the subgroup,
and nothing is asked of it but that both sides compute the same.
-/
import ShieldedWallet.Account
import ShieldedWallet.Proofs.Curve.Order

namespace ShieldedWallet

variable {key nonce s : Scalar} {message : Felt}

/-- The scalar that answers the challenge of a nonce, for a key and a message. -/
def Signature.answer (key nonce : Scalar) (message : Felt) : Scalar :=
  nonce + challenge (Point.base nonce) (Point.base key) message * key

theorem Point.base_answer :
    base (Signature.answer key nonce message) =
      base nonce + (base key).scale
        (Signature.challenge (base nonce) (base key) message) := by
  rw [Signature.answer, base_add, scale_base]

theorem Signature.verify_base_iff :
    Signature.verify ⟨Point.base nonce, s⟩ message (Point.base key) = true ↔
      s = answer key nonce message := by
  rw [verify, decide_eq_true_iff]
  show Point.base s = Point.base nonce + (Point.base key).scale _ ↔ _
  rw [← Point.base_answer, Point.base_inj]

namespace Account

theorem sign_s (a : Account) (message : Felt) :
    (a.sign message).s = Signature.answer a.signingScalar (a.nonce message) message := rfl

theorem verify_sign (a : Account) (message : Felt) :
    (a.sign message).verify message a.signingPoint = true :=
  Signature.verify_base_iff.mpr (a.sign_s message)

/-- Under an account's signing point, a message and a nonce have exactly one scalar that verifies,
whatever the key is, and the account's own signatures verify. -/
theorem verify_iff_answer (a : Account) (message : Felt) :
    (∀ nonce s : Scalar,
      Signature.verify ⟨Point.base nonce, s⟩ message a.signingPoint = true ↔
        s = nonce + Signature.challenge (Point.base nonce) a.signingPoint message *
          a.signingScalar) ∧
      (a.sign message).verify message a.signingPoint = true := by
  refine ⟨fun nonce s => ?_, a.verify_sign message⟩
  exact Signature.verify_base_iff

end Account

end ShieldedWallet
