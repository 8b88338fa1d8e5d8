/-
Keccak-256.

The sponge over the 1600-bit permutation with a rate of 136 bytes and a digest
of 32 bytes.  The message is followed by a one bit and padded with zeros up to
a closing one bit, which is the padding from before the standard of 2015 added
two domain bits.

* `keccak256` — the digest of a byte string.

Design notes: the state is a vector of 25 lanes, lane `(x, y)` at index
`x + 5 * y`.  A round is one formula for each new lane; the permutation of
lanes is written from the target, which takes its value from
`(x + 3 * y, x)`.
-/
import ShieldedWallet.Bytes.Basic

namespace ShieldedWallet.Keccak

/-- The 25 lanes of the permutation's state. -/
abbrev State := Vector UInt64 25

/-- The lane in column `x` and row `y`, both taken modulo five. -/
def State.lane (s : State) (x y : Nat) : UInt64 := s.get (Fin.ofNat 25 (x % 5 + 5 * (y % 5)))

/-- The state with a lane for each column and row. -/
def State.ofLanes (f : Nat → Nat → UInt64) : State :=
  Vector.ofFn fun i => f (i.val % 5) (i.val / 5)

/-- Rotation to the left by fewer than 64 bits. -/
def rotateLeft (w : UInt64) (k : UInt64) : UInt64 :=
  if k = 0 then w else (w <<< k) ||| (w >>> (64 - k))

/-- The rotation of each lane, in the order of the state. -/
def rotations : Vector UInt64 25 :=
  #v[0, 1, 62, 28, 27, 36, 44, 6, 55, 20, 3, 10, 43, 25, 39, 41, 45, 15, 21, 8, 18, 2, 61, 56, 14]

/-- The constant that each round adds to the first lane. -/
def roundConstants : List UInt64 :=
  [0x0000000000000001, 0x0000000000008082, 0x800000000000808a, 0x8000000080008000,
   0x000000000000808b, 0x0000000080000001, 0x8000000080008081, 0x8000000000008009,
   0x000000000000008a, 0x0000000000000088, 0x0000000080008009, 0x000000008000000a,
   0x000000008000808b, 0x800000000000008b, 0x8000000000008089, 0x8000000000008003,
   0x8000000000008002, 0x8000000000000080, 0x000000000000800a, 0x800000008000000a,
   0x8000000080008081, 0x8000000000008080, 0x0000000080000001, 0x8000000080008008]

/-- Adds to each lane the parities of two neighbouring columns. -/
def mixColumns (s : State) : State :=
  let parity : Vector UInt64 5 := Vector.ofFn fun x =>
    s.lane x 0 ^^^ s.lane x 1 ^^^ s.lane x 2 ^^^ s.lane x 3 ^^^ s.lane x 4
  let column (x : Nat) : UInt64 := parity.get (Fin.ofNat 5 x)
  State.ofLanes fun x y => s.lane x y ^^^ (column (x + 4) ^^^ rotateLeft (column (x + 1)) 1)

/-- Rotates every lane and moves it to its new place. -/
def rotateLanes (s : State) : State :=
  State.ofLanes fun x y => rotateLeft (s.lane (x + 3 * y) x) (State.lane rotations (x + 3 * y) x)

/-- Combines each lane with the two that follow it in its row. -/
def mixRows (s : State) : State :=
  State.ofLanes fun x y => s.lane x y ^^^ (~~~ s.lane (x + 1) y &&& s.lane (x + 2) y)

/-- One round with its constant. -/
def round (s : State) (constant : UInt64) : State :=
  let t := mixRows (rotateLanes (mixColumns s))
  t.set 0 (t.lane 0 0 ^^^ constant)

/-- The permutation of 24 rounds. -/
def permute (s : State) : State := roundConstants.foldl round s

/-- Bytes that the sponge takes up at a time. -/
def rate : Nat := 136

/-- The message with its padding, a whole number of blocks. -/
def pad (message : Bytes) : Bytes :=
  let missing := rate - message.length % rate
  if missing = 1 then message ++ [0x81]
  else message ++ 0x01 :: (List.replicate (missing - 2) 0 ++ [0x80])

/-- The lanes that a block of the sponge writes, eight bytes each. -/
def blockLanes (block : Bytes) : State :=
  let lanes := Vector.ofFn fun (i : Fin 25) =>
    UInt64.ofNat (Bytes.toNatLE ((block.drop (8 * i.val)).take 8))
  lanes

/-- Takes up the given number of blocks, permuting after each. -/
def absorb (s : State) : (blocks : Nat) → Bytes → State
  | 0, _ => s
  | n + 1, message =>
    let lanes := blockLanes (message.take rate)
    absorb (permute (s.zipWith (· ^^^ ·) lanes)) n (message.drop rate)

/-- The first 32 bytes of the state. -/
def squeeze (s : State) : Bytes :=
  [s.lane 0 0, s.lane 1 0, s.lane 2 0, s.lane 3 0].flatMap fun w => Bytes.ofNatLE 8 w.toNat

end Keccak

/-- The Keccak-256 digest of a byte string. -/
def keccak256 (message : Bytes) : FixedBytes 32 :=
  let padded := Keccak.pad message
  let state := Keccak.absorb (Vector.replicate 25 0) (padded.length / Keccak.rate) padded
  ⟨Keccak.squeeze state, by simp [Keccak.squeeze]⟩

end ShieldedWallet
