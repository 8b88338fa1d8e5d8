/-
Byte strings and the numbers they write.

A byte string is a list of octets.  A number is written in a fixed count of
bytes, least significant byte first (`ofNatLE`) or last (`ofNatBE`), and read
back by `toNatLE` and `toNatBE`.  The main statements say that writing and
reading are inverse to each other on the numbers that fit:

* `toNatLE_ofNatLE` — reading what was written gives the number modulo
  `256 ^ w`;
* `ofNatLE_toNatLE` — writing what was read gives the bytes;
* `toNatLE_lt` — `w` bytes hold a number below `256 ^ w`;
* the same three for the other byte order.

Design notes: the two orders are reversals of each other by definition, so
each fact about one is one step away from the other.  `FixedBytes n` is the
type of byte strings of length `n`, for keys, compressed points and encrypted
notes.
-/
namespace ShieldedWallet

-- Powers of numbers are those of the core library, whatever else is imported.
attribute [local instance (high)] instPowNat

/-- A byte string. -/
abbrev Bytes := List UInt8

namespace Bytes

/-! ### Reading numbers -/

/-- The number whose base-256 digits are the bytes, least significant first. -/
def toNatLE : Bytes → Nat
  | [] => 0
  | b :: bs => b.toNat + 256 * toNatLE bs

/-- The number whose base-256 digits are the bytes, most significant first. -/
def toNatBE (bs : Bytes) : Nat := toNatLE bs.reverse

@[simp] theorem toNatLE_nil : toNatLE [] = 0 := rfl

@[simp] theorem toNatLE_cons (b : UInt8) (bs : Bytes) :
    toNatLE (b :: bs) = b.toNat + 256 * toNatLE bs := rfl

theorem toNatLE_append (xs ys : Bytes) :
    toNatLE (xs ++ ys) = toNatLE xs + 256 ^ xs.length * toNatLE ys := by
  induction xs with
  | nil => simp
  | cons b bs ih =>
    simp only [List.cons_append, toNatLE_cons, ih, List.length_cons, Nat.pow_succ]
    rw [Nat.mul_add, Nat.mul_comm (256 ^ bs.length) 256, Nat.mul_assoc, Nat.add_assoc]

theorem toNatLE_lt (bs : Bytes) : toNatLE bs < 256 ^ bs.length := by
  induction bs with
  | nil => simp
  | cons b bs ih =>
    have hb : b.toNat < 256 := b.toNat_lt
    simp only [toNatLE_cons, List.length_cons, Nat.pow_succ]
    omega

theorem toNatBE_append (xs ys : Bytes) :
    toNatBE (xs ++ ys) = toNatBE ys + 256 ^ ys.length * toNatBE xs := by
  rw [toNatBE, List.reverse_append, toNatLE_append, List.length_reverse]
  rfl

theorem toNatBE_lt (bs : Bytes) : toNatBE bs < 256 ^ bs.length := by
  simpa [toNatBE] using toNatLE_lt bs.reverse

/-! ### Writing numbers -/

/-- The `w` low base-256 digits of `n`, least significant first. -/
def ofNatLE : (w n : Nat) → Bytes
  | 0, _ => []
  | w + 1, n => UInt8.ofNat (n % 256) :: ofNatLE w (n / 256)

/-- The `w` low base-256 digits of `n`, most significant first. -/
def ofNatBE (w n : Nat) : Bytes := (ofNatLE w n).reverse

@[simp] theorem length_ofNatLE (w n : Nat) : (ofNatLE w n).length = w := by
  induction w generalizing n with
  | zero => rfl
  | succ w ih => simp [ofNatLE, ih]

@[simp] theorem length_ofNatBE (w n : Nat) : (ofNatBE w n).length = w := by
  simp [ofNatBE]

theorem toNatLE_ofNatLE (w n : Nat) : toNatLE (ofNatLE w n) = n % 256 ^ w := by
  induction w generalizing n with
  | zero => simp [ofNatLE, Nat.mod_one]
  | succ w ih =>
    have hdigit : (UInt8.ofNat (n % 256)).toNat = n % 256 := by simp
    rw [ofNatLE, toNatLE_cons, ih, hdigit, Nat.pow_succ, Nat.mul_comm (256 ^ w) 256, Nat.mod_mul]

theorem toNatBE_ofNatBE (w n : Nat) : toNatBE (ofNatBE w n) = n % 256 ^ w := by
  simp [toNatBE, ofNatBE, toNatLE_ofNatLE]

theorem ofNatLE_toNatLE (bs : Bytes) : ofNatLE bs.length (toNatLE bs) = bs := by
  induction bs with
  | nil => rfl
  | cons b bs ih =>
    have hb : b.toNat < 256 := b.toNat_lt
    have hmod : (b.toNat + 256 * toNatLE bs) % 256 = b.toNat := by omega
    have hdiv : (b.toNat + 256 * toNatLE bs) / 256 = toNatLE bs := by omega
    simp only [List.length_cons, toNatLE_cons, ofNatLE, hmod, hdiv, ih, UInt8.ofNat_toNat]

theorem ofNatBE_toNatBE (bs : Bytes) : ofNatBE bs.length (toNatBE bs) = bs := by
  have h := ofNatLE_toNatLE bs.reverse
  rw [List.length_reverse] at h
  rw [ofNatBE, toNatBE, h, List.reverse_reverse]

theorem toNatLE_inj {xs ys : Bytes} (hlen : xs.length = ys.length)
    (h : toNatLE xs = toNatLE ys) : xs = ys := by
  rw [← ofNatLE_toNatLE xs, ← ofNatLE_toNatLE ys, hlen, h]

theorem ofNatBE_inj {w m n : Nat} (hm : m < 256 ^ w) (hn : n < 256 ^ w)
    (h : ofNatBE w m = ofNatBE w n) : m = n := by
  have := congrArg toNatBE h
  rwa [toNatBE_ofNatBE, toNatBE_ofNatBE, Nat.mod_eq_of_lt hm, Nat.mod_eq_of_lt hn] at this

/-! ### Combining byte strings -/

/-- Byte-wise exclusive or; the result is as long as the shorter argument. -/
def xor (xs ys : Bytes) : Bytes := List.zipWith (· ^^^ ·) xs ys

theorem length_xor (xs ys : Bytes) : (xor xs ys).length = min xs.length ys.length := by
  simp [xor]

/-- Applying a key stream twice undoes it. -/
theorem xor_xor_cancel {xs ks : Bytes} (h : xs.length ≤ ks.length) :
    xor (xor xs ks) ks = xs := by
  induction xs generalizing ks with
  | nil => rfl
  | cons x xs ih =>
    cases ks with
    | nil => simp at h
    | cons k ks =>
      have ih' : xor (xor xs ks) ks = xs := ih (by simpa using h)
      simp only [xor, List.zipWith_cons_cons] at ih' ⊢
      rw [ih', UInt8.xor_assoc, UInt8.xor_self, UInt8.xor_zero]

end Bytes

/-! ### Byte strings of a given length -/

/-- A byte string of length `n`. -/
@[ext] structure FixedBytes (n : Nat) where
  toList : Bytes
  /-- There are `n` of them. -/
  length_eq : toList.length = n
  deriving DecidableEq

namespace FixedBytes

variable {n : Nat}

attribute [simp] length_eq

/-- The bytes as a byte string of length `n`, if there are `n` of them. -/
def ofList? (n : Nat) (bs : Bytes) : Option (FixedBytes n) :=
  if h : bs.length = n then some ⟨bs, h⟩ else none

/-- The first `n` bytes, filled up with zeros where there are fewer. -/
def ofListPadded (n : Nat) (bs : Bytes) : FixedBytes n :=
  ⟨(bs ++ List.replicate n 0).take n, by simp⟩

/-- The number `v` in `n` bytes, most significant first. -/
def ofNatBE (n v : Nat) : FixedBytes n := ⟨Bytes.ofNatBE n v, by simp⟩

/-- The number `v` in `n` bytes, least significant first. -/
def ofNatLE (n v : Nat) : FixedBytes n := ⟨Bytes.ofNatLE n v, by simp⟩

/-- The number that the bytes write, most significant first. -/
def toNatBE (b : FixedBytes n) : Nat := Bytes.toNatBE b.toList

/-- The number that the bytes write, least significant first. -/
def toNatLE (b : FixedBytes n) : Nat := Bytes.toNatLE b.toList

/-- The bytes in the opposite order. -/
def reverse (b : FixedBytes n) : FixedBytes n := ⟨b.toList.reverse, by simp⟩

theorem toNatBE_reverse (b : FixedBytes n) : b.reverse.toNatBE = b.toNatLE := by
  rw [toNatBE, reverse, Bytes.toNatBE, List.reverse_reverse, toNatLE]

theorem toList_ofListPadded {bs : Bytes} (h : bs.length = n) : (ofListPadded n bs).toList = bs := by
  show (bs ++ List.replicate n 0).take n = bs
  exact List.take_left' h

theorem toList_ofListPadded_of_le {bs : Bytes} (h : n ≤ bs.length) :
    (ofListPadded n bs).toList = bs.take n := by
  show (bs ++ List.replicate n 0).take n = bs.take n
  exact List.take_append_of_le_length h

/-- Padding changes nothing where there are bytes enough. -/
theorem ofListPadded_append (b : FixedBytes n) (rest : Bytes) :
    ofListPadded n (b.toList ++ rest) = b := by
  refine FixedBytes.ext ?_
  show (b.toList ++ rest ++ List.replicate n 0).take n = b.toList
  rw [List.append_assoc]
  exact List.take_left' b.length_eq

theorem ofList?_toList (b : FixedBytes n) : ofList? n b.toList = some b := by
  simp [ofList?]

theorem ofList?_eq_some {bs : Bytes} {b : FixedBytes n} (h : ofList? n bs = some b) :
    b.toList = bs := by
  unfold ofList? at h
  split at h
  · cases h; rfl
  · cases h

end FixedBytes

end ShieldedWallet
