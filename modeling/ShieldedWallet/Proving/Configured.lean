/-
What the settings choose.

* `Config.prover` — the prover of the chosen mode;
* `Config.keyStore` — where key files are looked for;
* `Config.builder` — a builder at the price of the settings, for transactions
  of their size on the wire.
-/
import ShieldedWallet.Config.Basic
import ShieldedWallet.Plan.Builder
import ShieldedWallet.Proving.Command

namespace ShieldedWallet.Config

/-- The prover of the chosen mode; `behaviour` says how the external program behaves. -/
def prover (c : Config) (behaviour : String → KeyFiles → ExternalSession) : Prover :=
  match c.proverMode with
  | .mock => mockProver
  | .command => commandProver c.proverBinary (c.proofTimeout.map UInt64.toNat) behaviour

/-- Where key files are looked for, with a directory for downloads. -/
def keyStore (c : Config) (scratch : String) : KeyStore := .new c.localDir c.remoteRoot scratch

/-- A builder without notes or outputs. -/
def builder (c : Config) (changeTo : ShieldedAddress) : Builder :=
  (Builder.new changeTo wireSize none).setRate (.ofNat c.feePerByte.toNat)

end ShieldedWallet.Config
