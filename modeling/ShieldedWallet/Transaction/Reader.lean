/-
Reading bytes from front to back.

A reader takes bytes off the front of what is left and knows how many it has
taken, so that it can say where it failed.  It fails where fewer bytes are left
than a field needs.

* `Reader.bytes` — the next bytes, in the given count;
* `Reader.felt`, `Reader.amount`, `Reader.address` — the next field of a kind;
* `Reader.times` — a field read the given number of times;
* `Reader.finish` — succeeds if nothing is left.
-/
import ShieldedWallet.Address.Ledger

namespace ShieldedWallet

/-- Why bytes are no transaction. -/
inductive DecodeError where
  /-- At `offset` there are fewer bytes left than the `needed` ones. -/
  | truncated (offset needed : Nat)
  | trailingBytes (count : Nat)
  /-- The byte at `offset` is no code of a kind of output. -/
  | unknownOutflowKind (offset : Nat) (value : UInt8)
  /-- The switch byte has bits that say nothing, or announces two memos. -/
  | unknownSwitchBits (switch : UInt8)
  /-- The 32 bytes at `offset` are no least residue. -/
  | nonCanonicalField (offset : Nat)
  deriving DecidableEq

/-- The eight binary digits of a byte. -/
def binaryDigits (b : UInt8) : String :=
  String.ofList ((List.range 8).map fun i => if b.toNat.testBit (7 - i) then '1' else '0')

/-- The report of bytes that are no transaction. -/
def DecodeError.message : DecodeError → String
  | .truncated offset needed => s!"Truncated input: needed {needed} bytes at offset {offset}"
  | .trailingBytes count => s!"{count} trailing bytes after the transaction"
  | .unknownOutflowKind offset value =>
    s!"Unknown outflow type {value.toNat} at offset {offset}"
  | .unknownSwitchBits switch => "Unknown switch bits: 0b" ++ binaryDigits switch
  | .nonCanonicalField offset => s!"Value at offset {offset} is not a canonical field element"

/-- What is left to read, and how much has been read. -/
structure Cursor where
  offset : Nat
  rest : Bytes
  deriving DecidableEq

/-- Takes a value off the front of the bytes left. -/
abbrev Reader (α : Type) := StateT Cursor (Except DecodeError) α

namespace Reader

/-- How many bytes have been read. -/
def offset : Reader Nat := fun c => .ok (c.offset, c)

/-- The next `n` bytes. -/
def bytes (n : Nat) : Reader (FixedBytes n) := fun c =>
  match FixedBytes.ofList? n (c.rest.take n) with
  | some b => .ok (b, ⟨c.offset + n, c.rest.drop n⟩)
  | none => .error (.truncated c.offset n)

/-- The next byte. -/
def byte : Reader UInt8 := do
  let b ← bytes 1
  return b.toList.headD 0

/-- The next two bytes as a number, most significant first. -/
def short : Reader UInt16 := do
  let b ← bytes 2
  return UInt16.ofNat b.toNatBE

/-- The next 32 bytes as an amount. -/
def amount : Reader Amount := do
  let b ← bytes 32
  return Amount.ofBytesBE b

/-- The next 20 bytes as an address. -/
def address : Reader LedgerAddress := do
  let b ← bytes 20
  return LedgerAddress.ofBytes b

/-- The next 32 bytes as a field element. -/
def felt : Reader Felt := do
  let position ← offset
  let b ← bytes 32
  match Felt.ofBytesBE? b with
  | some a => return a
  | none => throw (.nonCanonicalField position)

/-- A value read `n` times. -/
def times {α : Type} (read : Reader α) : (n : Nat) → Reader (List α)
  | 0 => return []
  | n + 1 => do
    let a ← read
    let as ← times read n
    return a :: as

/-- Nothing is left. -/
def finish : Reader Unit := fun c =>
  match c.rest with
  | [] => .ok ((), c)
  | _ :: _ => .error (.trailingBytes c.rest.length)

end Reader

end ShieldedWallet
