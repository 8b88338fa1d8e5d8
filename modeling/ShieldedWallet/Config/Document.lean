/-
Settings as a document.

The settings stand in three sections of a TOML document.  Reading takes
defaults for what is missing and passes over what it does not know; a value of
the wrong kind makes the whole document wrong.

* `Config.ofToml?` — the settings of a document;
* `Config.toToml?` — the document of the settings;
* `Config.sample` — settings that show every entry.

Design notes: a section is whatever `Toml.Value.fields?` takes for one, so it
may also be written as an array of its values in order.
-/
import ShieldedWallet.Config.Basic
import ShieldedWallet.Toml.Document
import ShieldedWallet.Toml.Quoted

namespace ShieldedWallet

-- Powers of numbers are those of the core library, whatever else is imported.
attribute [local instance (high)] instPowNat

/-! ### Reading -/

/-- The prover with the given name in a document. -/
def ProverMode.ofName? (name : String) : Option ProverMode :=
  if name = "command" then some .command
  else if name = "mock" then some .mock
  else none

/-- The prover that a value names, as a text or as the only entry of a table, itself empty. -/
def ProverMode.ofToml? : Toml.Value → Option ProverMode
  | .string name => ofName? name
  | .table _ [(name, v)] => if v.isEmpty then ofName? name else none
  | _ => none

namespace Config

/-- A field of a section that may be missing. -/
def fieldOr? {α : Type} (read : Toml.Value → Option α) (default : α) (v : Option Toml.Value) :
    Option α :=
  match v with
  | some v => read v
  | none => some default

/-- The section on fees. -/
def readFees? (c : Config) (v : Toml.Value) : Option Config :=
  match v.fields? ["fee_per_byte"] with
  | some [fee] => do
    let fee ← fieldOr? Toml.Value.word? c.feePerByte fee
    return { c with feePerByte := fee }
  | _ => none

/-- The section on the circuits' files. -/
def readCircuits? (c : Config) (v : Toml.Value) : Option Config :=
  match v.fields? ["local_dir", "remote_root"] with
  | some [localDir, remoteRoot] => do
    let localDir ← fieldOr? (fun v => v.text?.map some) c.localDir localDir
    let remoteRoot ← fieldOr? (fun v => v.text?.map some) c.remoteRoot remoteRoot
    return { c with localDir := localDir, remoteRoot := remoteRoot }
  | _ => none

/-- The section on the prover. -/
def readProver? (c : Config) (v : Toml.Value) : Option Config :=
  match v.fields? ["mode", "binary", "proof_timeout_secs"] with
  | some [mode, binary, timeout] => do
    let mode ← fieldOr? ProverMode.ofToml? c.proverMode mode
    let binary ← fieldOr? Toml.Value.text? c.proverBinary binary
    let timeout ← fieldOr? (fun v => v.word?.map some) c.proofTimeout timeout
    return { c with proverMode := mode, proverBinary := binary, proofTimeout := timeout }
  | _ => none

/-- A section of a document, which may be missing. -/
def readSection? (read : Config → Toml.Value → Option Config) (v : Option Toml.Value) (c : Config) :
    Option Config :=
  match v with
  | some v => read c v
  | none => some c

/-- The settings of a document. -/
def ofToml? (text : String) : Option Config := do
  let entries ← Toml.parse? text
  let c ← readSection? readFees? (entries.get? "fees") {}
  let c ← readSection? readCircuits? (entries.get? "circuits") c
  readSection? readProver? (entries.get? "prover") c

/-! ### Writing -/

/-- The line of an entry. -/
def entryLine (name value : String) : String := name ++ " = " ++ value ++ "\n"

/-- The line of an entry with a text, if there is one. -/
def textLine (name : String) (text : Option String) : String :=
  (text.map fun t => entryLine name (Toml.quote t)).getD ""

/-- A number that the document can hold: its integers have 64 bits with a sign. -/
def isWritable (n : UInt64) : Bool := n.toNat < 2 ^ (63 : Nat)

/-- The document of the settings, unless a number is too large for it. -/
def toToml? (c : Config) : Option String :=
  if isWritable c.feePerByte && c.proofTimeout.all isWritable then
    some <|
      "[fees]\n" ++ entryLine "fee_per_byte" (toString c.feePerByte.toNat)
      ++ "\n[circuits]\n" ++ textLine "local_dir" c.localDir ++ textLine "remote_root" c.remoteRoot
      ++ "\n[prover]\n" ++ entryLine "mode" (Toml.quote c.proverMode.name)
      ++ entryLine "binary" (Toml.quote c.proverBinary)
      ++ (c.proofTimeout.map fun n => entryLine "proof_timeout_secs" (toString n.toNat)).getD ""
  else none

/-- Settings that show every entry. -/
def sample : Config :=
  { remoteRoot := some "https://circuits.example.org/v1", proofTimeout := some 600 }

/-- The document of the sample. -/
def sampleText : String := sample.toToml?.getD ""

end Config

end ShieldedWallet
