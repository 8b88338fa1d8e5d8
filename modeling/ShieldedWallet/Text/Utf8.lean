/-
Text from bytes that may not be text.

Bytes are read as UTF-8.  Wherever they are not, the longest run that could
have begun a character is replaced by one replacement character.

* `decodeLossy` — the text of a byte string.

Design notes: reading is one pass with the unfinished character as its state.
A byte that cannot continue the unfinished character ends it and is then read
as the start of another.
-/
import ShieldedWallet.Bytes.Basic

namespace ShieldedWallet.Utf8

/-- A character of which some bytes are still to come. -/
structure Unfinished where
  /-- Bytes still to come. -/
  missing : Nat
  /-- The least value of the next byte. -/
  low : UInt8
  /-- The greatest value of the next byte. -/
  high : UInt8
  /-- The bits read so far. -/
  code : Nat
  deriving DecidableEq

/-- Stands for bytes that are no text. -/
def replacement : Char := '\uFFFD'

/-- Reads the first byte of a character. -/
def start (b : UInt8) : Option Unfinished × List Char :=
  let n := b.toNat
  if n < 0x80 then (none, [Char.ofNat n])
  else if n < 0xC2 then (none, [replacement])
  else if n < 0xE0 then (some ⟨1, 0x80, 0xBF, n - 0xC0⟩, [])
  else if n = 0xE0 then (some ⟨2, 0xA0, 0xBF, 0⟩, [])
  else if n = 0xED then (some ⟨2, 0x80, 0x9F, 0xD⟩, [])
  else if n < 0xF0 then (some ⟨2, 0x80, 0xBF, n - 0xE0⟩, [])
  else if n = 0xF0 then (some ⟨3, 0x90, 0xBF, 0⟩, [])
  else if n < 0xF4 then (some ⟨3, 0x80, 0xBF, n - 0xF0⟩, [])
  else if n = 0xF4 then (some ⟨3, 0x80, 0x8F, 4⟩, [])
  else (none, [replacement])

/-- Reads one byte, given the unfinished character if there is one. -/
def step (state : Option Unfinished) (b : UInt8) : Option Unfinished × List Char :=
  match state with
  | none => start b
  | some u =>
    if u.low ≤ b ∧ b ≤ u.high then
      let code := 64 * u.code + (b.toNat - 0x80)
      if u.missing = 1 then (none, [Char.ofNat code])
      else (some ⟨u.missing - 1, 0x80, 0xBF, code⟩, [])
    else
      let (next, chars) := start b
      (next, replacement :: chars)

/-- The characters that bytes write. -/
def decodeChars : Option Unfinished → Bytes → List Char
  | none, [] => []
  | some _, [] => [replacement]
  | state, b :: bs =>
    let (next, chars) := step state b
    chars ++ decodeChars next bs

/-- The text of a byte string. -/
def decodeLossy (bs : Bytes) : String := String.ofList (decodeChars none bs)

end ShieldedWallet.Utf8
