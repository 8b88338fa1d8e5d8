/-
Provers.

A prover turns a witness and the key files of its circuit into a proof and the
public signals that the proof commits to.  It may fail with a reason, or crash;
a crash counts as a failure, whose reason holds the report of the crash.

* `Prover` — any prover;
* `mockProver` — a prover for development, whose proof is a digest of the
  witness and verifies against nothing.
-/
import ShieldedWallet.Proving.Keys
import ShieldedWallet.Proving.WitnessText

namespace ShieldedWallet

/-- A proof and the public signals it commits to. -/
@[ext] structure ProvedSignals where
  proof : Groth16Proof
  publicSignals : List String
  deriving DecidableEq

/-- How a run of a prover ends. -/
inductive ProverOutcome where
  | proved (result : ProvedSignals)
  | failed (reason : String)
  /-- The run broke off, and whoever ran the prover reports how. -/
  | crashed (report : String)
  deriving DecidableEq

/-- The proof, or the reason why there is none. -/
def ProverOutcome.toExcept : ProverOutcome → Except String ProvedSignals
  | .proved result => .ok result
  | .failed reason => .error reason
  | .crashed report => .error ("prover task panicked: " ++ report)

/-- Proves a witness with the key files of its circuit. -/
abbrev Prover := Witness String → KeyFiles → ProverOutcome

namespace MockProver

/-- The context under which the digest is taken. -/
def context : String := "veil 2024 mock groth16 proof"

/-- Bytes of a coordinate; 31 keep it below the order of the field that coordinates live in. -/
def coordinateLength : Nat := 31

/-- The coordinate with a given number in a digest. -/
def coordinate (digest : Bytes) (i : Nat) : Amount :=
  .ofNat (Bytes.toNatBE ((digest.drop (coordinateLength * i)).take coordinateLength))

/-- The proof that stands for a witness. -/
def proof (w : Witness String) : Groth16Proof :=
  let digest := (Blake3.deriveKey context w.json.toUTF8.toList (coordinateLength * 8)).toList
  { ax := coordinate digest 0
    ay := coordinate digest 1
    b00 := coordinate digest 2
    b01 := coordinate digest 3
    b10 := coordinate digest 4
    b11 := coordinate digest 5
    cx := coordinate digest 6
    cy := coordinate digest 7 }

end MockProver

/-- Answers with a digest of the witness and its own public signals. -/
def mockProver : Prover := fun w _ => .proved ⟨MockProver.proof w, w.publicSignals⟩

end ShieldedWallet
