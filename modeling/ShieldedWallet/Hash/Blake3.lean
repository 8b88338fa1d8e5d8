/-
BLAKE3 in key-derivation mode.

A message is cut into chunks of 1024 bytes, each compressed block by block; the
chunks are the leaves of a binary tree whose left subtrees hold a power of two
of chunks.  The root can be compressed under successive counters and so yields
output of any length.

* `deriveKey` — the first `n` bytes derived from key material under a context
  text.

Design notes: the tree over `n` chunks is built by recursion on a height: a
node of height `h + 1` splits after `2 ^ h` chunks if the message is longer
than that, and is the node of height `h` otherwise.
-/
import ShieldedWallet.Bytes.Basic

namespace ShieldedWallet.Blake3

-- Powers of numbers are those of the core library, whatever else is imported.
attribute [local instance (high)] instPowNat

/-- Eight words: a key or the value that one compression hands to the next. -/
abbrev Chaining := Vector UInt32 8

/-- Sixteen words: a message block or the state of the compression. -/
abbrev Block := Vector UInt32 16

/-- The initial words. -/
def initial : Chaining :=
  #v[0x6A09E667, 0xBB67AE85, 0x3C6EF372, 0xA54FF53A, 0x510E527F, 0x9B05688C, 0x1F83D9AB,
     0x5BE0CD19]

/-! ### Domain flags -/

/-- Marks the first block of a chunk. -/
def chunkStart : UInt32 := 1

/-- Marks the last block of a chunk. -/
def chunkEnd : UInt32 := 2

/-- Marks an inner node of the tree. -/
def parent : UInt32 := 4

/-- Marks the root of the tree. -/
def root : UInt32 := 8

/-- Marks the hashing of a context text. -/
def contextFlag : UInt32 := 32

/-- Marks the hashing of key material. -/
def materialFlag : UInt32 := 64

/-! ### Compression -/

/-- Rotation to the right by `k` bits, `0 < k < 32`. -/
def rotateRight (w k : UInt32) : UInt32 := (w >>> k) ||| (w <<< (32 - k))

/-- Mixes two message words into four words of the state. -/
def mix (v : Block) (a b c d : Fin 16) (x y : UInt32) : Block :=
  let va := v.get a + v.get b + x
  let vd := rotateRight (v.get d ^^^ va) 16
  let vc := v.get c + vd
  let vb := rotateRight (v.get b ^^^ vc) 12
  let va := va + vb + y
  let vd := rotateRight (vd ^^^ va) 8
  let vc := vc + vd
  let vb := rotateRight (vb ^^^ vc) 7
  (((v.set a va).set b vb).set c vc).set d vd

/-- Mixes the columns and then the diagonals of the state. -/
def round (v m : Block) : Block :=
  let v := mix v 0 4 8 12 (m.get 0) (m.get 1)
  let v := mix v 1 5 9 13 (m.get 2) (m.get 3)
  let v := mix v 2 6 10 14 (m.get 4) (m.get 5)
  let v := mix v 3 7 11 15 (m.get 6) (m.get 7)
  let v := mix v 0 5 10 15 (m.get 8) (m.get 9)
  let v := mix v 1 6 11 12 (m.get 10) (m.get 11)
  let v := mix v 2 7 8 13 (m.get 12) (m.get 13)
  mix v 3 4 9 14 (m.get 14) (m.get 15)

/-- The order in which a round takes the words of the round before. -/
def schedule : Vector (Fin 16) 16 := #v[2, 6, 3, 10, 7, 0, 4, 13, 1, 11, 12, 5, 9, 14, 15, 8]

/-- The given number of rounds, reordering the message after each. -/
def rounds : Nat → Block → Block → Block
  | 0, v, _ => v
  | n + 1, v, m => rounds n (round v m) (schedule.map m.get)

/-- A compression that is still to be run: its inputs but for the counter of the output. -/
structure Node where
  /-- The key or the value of the block before. -/
  chaining : Chaining
  /-- The message block. -/
  block : Block
  /-- The number of the chunk. -/
  counter : UInt64
  /-- Bytes in the block. -/
  length : UInt32
  /-- Domain flags. -/
  flags : UInt32

/-- The sixteen words that a compression yields under a counter and additional flags. -/
def Node.compress (n : Node) (counter : UInt64) (flags : UInt32) : Block :=
  let cv := n.chaining
  let start : Block :=
    #v[cv.get 0, cv.get 1, cv.get 2, cv.get 3, cv.get 4, cv.get 5, cv.get 6, cv.get 7,
       initial.get 0, initial.get 1, initial.get 2, initial.get 3,
       counter.toUInt32, (counter >>> 32).toUInt32, n.length, n.flags ||| flags]
  let v := rounds 7 start n.block
  Vector.ofFn fun i =>
    if h : i.val < 8 then v.get i ^^^ v.get ⟨i.val + 8, by omega⟩
    else v.get i ^^^ cv.get ⟨i.val - 8, by omega⟩

/-- The value handed to the next compression. -/
def Node.value (n : Node) : Chaining :=
  let out := n.compress n.counter 0
  Vector.ofFn fun i => out.get ⟨i.val, by omega⟩

/-! ### Chunks and tree -/

/-- Bytes in a block. -/
def blockSize : Nat := 64

/-- Bytes in a chunk. -/
def chunkSize : Nat := 1024

/-- The words that up to 64 bytes write, filled up with zeros. -/
def blockOfBytes (bs : Bytes) : Block :=
  Vector.ofFn fun i => UInt32.ofNat (Bytes.toNatLE ((bs.drop (4 * i.val)).take 4))

/-- The last compression of a chunk, after the given number of blocks before it. -/
def chunkNode (flags : UInt32) (counter : UInt64) (start : UInt32) :
    (blocks : Nat) → Chaining → Bytes → Node
  | 0, cv, bs =>
    ⟨cv, blockOfBytes bs, counter, UInt32.ofNat bs.length, flags ||| start ||| chunkEnd⟩
  | n + 1, cv, bs =>
    let node : Node :=
      ⟨cv, blockOfBytes (bs.take blockSize), counter, UInt32.ofNat blockSize, flags ||| start⟩
    chunkNode flags counter 0 n node.value (bs.drop blockSize)

/-- The node over the chunks of a message no longer than `2 ^ height` chunks. -/
def treeNode (key : Chaining) (flags : UInt32) : (height : Nat) → UInt64 → Bytes → Node
  | 0, counter, bs => chunkNode flags counter chunkStart ((bs.length - 1) / blockSize) key bs
  | h + 1, counter, bs =>
    let leftSize := chunkSize * 2 ^ h
    if bs.length ≤ leftSize then treeNode key flags h counter bs
    else
      let left := (treeNode key flags h counter (bs.take leftSize)).value
      let right := (treeNode key flags h (counter + UInt64.ofNat (2 ^ h)) (bs.drop leftSize)).value
      let words : Block := Vector.ofFn fun i =>
        if h : i.val < 8 then left.get ⟨i.val, h⟩ else right.get ⟨i.val - 8, by omega⟩
      ⟨key, words, 0, UInt32.ofNat blockSize, flags ||| parent⟩

/-- The root of the tree over a message. -/
def rootNode (key : Chaining) (flags : UInt32) (message : Bytes) : Node :=
  treeNode key flags (Nat.log2 (message.length / chunkSize + 1) + 1) 0 message

/-- Output blocks of the root, from the given number on. -/
def outputBlocks (n : Node) (first : Nat) : (count : Nat) → Bytes
  | 0 => []
  | count + 1 =>
    (n.compress (UInt64.ofNat first) root).toList.flatMap (fun w => Bytes.ofNatLE 4 w.toNat) ++
      outputBlocks n (first + 1) count

/-- The first `n` bytes of a root's output. -/
def output (node : Node) (n : Nat) : FixedBytes n :=
  .ofListPadded n (outputBlocks node 0 ((n + blockSize - 1) / blockSize))

/-- The key that belongs to a context text. -/
def contextKey (context : String) : Chaining :=
  let bytes := (output (rootNode initial contextFlag context.toUTF8.toList) 32).toList
  Vector.ofFn fun i => UInt32.ofNat (Bytes.toNatLE ((bytes.drop (4 * i.val)).take 4))

/-- The first `n` bytes derived from key material under a context text. -/
def deriveKey (context : String) (material : Bytes) (n : Nat) : FixedBytes n :=
  output (rootNode (contextKey context) materialFlag material) n

end ShieldedWallet.Blake3
