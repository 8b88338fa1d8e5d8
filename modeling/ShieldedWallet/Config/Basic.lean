/-
Settings of the wallet.

`Config` holds the six settings with their defaults.  Variables of the
environment override them one by one, and a value that cannot be read is
passed over.

* `ProverMode.ofText?` — the prover that a variable asks for;
* `Config.override` — the settings under an environment.

Design notes: the mock prover gives proofs that verify nowhere, so no default
leads to it.
-/
namespace ShieldedWallet

-- Powers of numbers are those of the core library, whatever else is imported.
attribute [local instance (high)] instPowNat

/-! ### The choice of prover -/

/-- Which prover makes the proofs. -/
inductive ProverMode where
  /-- A program that is run for each proof. -/
  | command
  /-- A stand-in whose proofs verify nowhere. -/
  | mock
  deriving DecidableEq, Inhabited

namespace ProverMode

/-- The prover that a text names, in letters of either case. -/
def ofText? (text : String) : Option ProverMode :=
  let name := text.map Char.toLower
  if name = "command" ∨ name = "snarkjs" then some .command
  else if name = "mock" then some .mock
  else none

/-- What is said of a text that names no prover. -/
def unknownMessage (text : String) : String := "unknown prover mode: " ++ text.map Char.toLower

/-- The name of a prover in a document. -/
def name : ProverMode → String
  | .command => "command"
  | .mock => "mock"

end ProverMode

/-! ### Settings -/

/-- The settings. -/
structure Config where
  /-- The price of a byte on the wire, in wei. -/
  feePerByte : UInt64 := 1_000_000_000
  /-- The local directory of the circuits' files. -/
  localDir : Option String := some "./circuits"
  /-- The remote root of the circuits' files. -/
  remoteRoot : Option String := none
  /-- Which prover makes the proofs. -/
  proverMode : ProverMode := .command
  /-- The program that is run for a proof. -/
  proverBinary : String := "snarkjs"
  /-- The seconds that a proof may take. -/
  proofTimeout : Option UInt64 := none
  deriving DecidableEq

instance : Inhabited Config := ⟨{}⟩

/-! ### Overrides -/

/-- A number of decimal digits below `2 ^ 64`, behind a plus sign or none. -/
def wordOfText? (text : String) : Option UInt64 :=
  let digits := match text.toList with
    | '+' :: rest => rest
    | cs => cs
  if digits.isEmpty || !digits.all Char.isDigit then none
  else
    let n := digits.foldl (fun n c => 10 * n + (c.toNat - 48)) 0
    if n < 2 ^ (64 : Nat) then some (UInt64.ofNat n) else none

/-- The variables of an environment that are set. -/
abbrev Environment := String → Option String

namespace Config

/-- The settings, each taken from its variable if that is set and can be read. -/
def override (env : Environment) (c : Config) : Config where
  feePerByte := ((env "VEIL_FEE_PER_BYTE").bind wordOfText?).getD c.feePerByte
  localDir := (env "VEIL_CIRCUIT_DIR").or c.localDir
  remoteRoot := (env "VEIL_CIRCUIT_REMOTE").or c.remoteRoot
  proverMode := ((env "VEIL_PROVER_MODE").bind ProverMode.ofText?).getD c.proverMode
  proverBinary := (env "VEIL_PROVER_BIN").getD c.proverBinary
  proofTimeout := ((env "VEIL_PROOF_TIMEOUT_SECS").bind wordOfText?).or c.proofTimeout

end Config

end ShieldedWallet
