import ShieldedWallet.Account
import ShieldedWallet.Address.Error
import ShieldedWallet.Address.Ledger
import ShieldedWallet.Address.Shielded
import ShieldedWallet.Amount
import ShieldedWallet.Asset
import ShieldedWallet.Bytes.Basic
import ShieldedWallet.Bytes.Hex
import ShieldedWallet.Bytes.Words
import ShieldedWallet.Config.Basic
import ShieldedWallet.Config.Document
import ShieldedWallet.Config.Load
import ShieldedWallet.Curve.Compressed
import ShieldedWallet.Curve.Point
import ShieldedWallet.Field
import ShieldedWallet.Files.Program
import ShieldedWallet.Files.Tree
import ShieldedWallet.Hash.Blake3
import ShieldedWallet.Hash.Keccak
import ShieldedWallet.Hash.Poseidon.Constants
import ShieldedWallet.Hash.Poseidon.Sponge
import ShieldedWallet.Holdings
import ShieldedWallet.Json.Parser
import ShieldedWallet.Json.Text
import ShieldedWallet.Note.Basic
import ShieldedWallet.Note.Encryption
import ShieldedWallet.Note.Outflow
import ShieldedWallet.Plan.Basic
import ShieldedWallet.Plan.Builder
import ShieldedWallet.Plan.Selection
import ShieldedWallet.Proofs.Addresses
import ShieldedWallet.Proofs.AlikeNotes
import ShieldedWallet.Proofs.Balance
import ShieldedWallet.Proofs.Base58
import ShieldedWallet.Proofs.Building
import ShieldedWallet.Proofs.CanonicalPayloads
import ShieldedWallet.Proofs.Capacity
import ShieldedWallet.Proofs.Change
import ShieldedWallet.Proofs.CircuitNames
import ShieldedWallet.Proofs.Commitment
import ShieldedWallet.Proofs.Conservation
import ShieldedWallet.Proofs.Curve.Compression
import ShieldedWallet.Proofs.Curve.Edwards
import ShieldedWallet.Proofs.Curve.Multiples
import ShieldedWallet.Proofs.Curve.Order
import ShieldedWallet.Proofs.Curve.Primality
import ShieldedWallet.Proofs.Curve.Residues
import ShieldedWallet.Proofs.Curve.Spelling
import ShieldedWallet.Proofs.DecodeErrors
import ShieldedWallet.Proofs.Delivery
import ShieldedWallet.Proofs.Downloads
import ShieldedWallet.Proofs.Encryptable
import ShieldedWallet.Proofs.EtherText
import ShieldedWallet.Proofs.ExitClaim
import ShieldedWallet.Proofs.Failures
import ShieldedWallet.Proofs.FaithfulProver
import ShieldedWallet.Proofs.Faults
import ShieldedWallet.Proofs.FewestInputs
import ShieldedWallet.Proofs.FieldBytes
import ShieldedWallet.Proofs.FungibleSelection
import ShieldedWallet.Proofs.Identity
import ShieldedWallet.Proofs.Inputs
import ShieldedWallet.Proofs.KeyFiles
import ShieldedWallet.Proofs.Mismatch
import ShieldedWallet.Proofs.MoreEther
import ShieldedWallet.Proofs.NoteRelation
import ShieldedWallet.Proofs.Nullifiers
import ShieldedWallet.Proofs.Numerals
import ShieldedWallet.Proofs.OrderFree
import ShieldedWallet.Proofs.Outcome
import ShieldedWallet.Proofs.Overrides
import ShieldedWallet.Proofs.Ownership
import ShieldedWallet.Proofs.Paths
import ShieldedWallet.Proofs.Payloads
import ShieldedWallet.Proofs.Payment
import ShieldedWallet.Proofs.Pricing
import ShieldedWallet.Proofs.Reading
import ShieldedWallet.Proofs.Recovery
import ShieldedWallet.Proofs.Reordering
import ShieldedWallet.Proofs.Repricing
import ShieldedWallet.Proofs.Selection
import ShieldedWallet.Proofs.Shielding
import ShieldedWallet.Proofs.Signals
import ShieldedWallet.Proofs.Signatures
import ShieldedWallet.Proofs.SingleSelection
import ShieldedWallet.Proofs.Size
import ShieldedWallet.Proofs.Sums
import ShieldedWallet.Proofs.Totals
import ShieldedWallet.Proofs.Trees
import ShieldedWallet.Proofs.Wire
import ShieldedWallet.Proofs.Witnesses
import ShieldedWallet.Proving.Command
import ShieldedWallet.Proving.Configured
import ShieldedWallet.Proving.Inclusion
import ShieldedWallet.Proving.Keys
import ShieldedWallet.Proving.Prover
import ShieldedWallet.Proving.Shield
import ShieldedWallet.Proving.Witness
import ShieldedWallet.Proving.WitnessText
import ShieldedWallet.Text.Base58
import ShieldedWallet.Text.Ether
import ShieldedWallet.Text.HexDigit
import ShieldedWallet.Text.Quoted
import ShieldedWallet.Text.Utf8
import ShieldedWallet.TokenMap
import ShieldedWallet.Toml.Document
import ShieldedWallet.Toml.Entries
import ShieldedWallet.Toml.Literal
import ShieldedWallet.Toml.Quoted
import ShieldedWallet.Toml.Value
import ShieldedWallet.Transaction.Basic
import ShieldedWallet.Transaction.Memo
import ShieldedWallet.Transaction.Reader
import ShieldedWallet.Transaction.Wire
