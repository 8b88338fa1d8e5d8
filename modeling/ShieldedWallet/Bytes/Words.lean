/-
Numbers in words of 64 bits.

A long number is held in words, the least significant one first.  Bytes that
write a number most significant first are cut into words from their end, eight
bytes to a word.

* `Words.toNat` — the number that words hold;
* `Bytes.words` — the words at the end of a byte string;
* `Bytes.toNat_words` — bytes and the words cut from them hold one number.
-/
import ShieldedWallet.Bytes.Basic

namespace ShieldedWallet

-- Powers of numbers are those of the core library, whatever else is imported.
attribute [local instance (high)] instPowNat

/-- A number in words of 64 bits, least significant word first. -/
abbrev Words := List UInt64

/-- The number whose digits to the base `2 ^ 64` are the words. -/
def Words.toNat : Words → Nat
  | [] => 0
  | w :: ws => w.toNat + 2 ^ (64 : Nat) * Words.toNat ws

namespace Bytes

/-- The last `n` words of eight bytes each, the last word first.  Within a word the most significant
byte comes first. -/
def words : (n : Nat) → Bytes → Words
  | 0, _ => []
  | n + 1, bs =>
    UInt64.ofNat (toNatBE (bs.drop (bs.length - 8))) :: words n (bs.take (bs.length - 8))

/-- A word holds all of eight bytes. -/
theorem toNat_word {bs : Bytes} (h : bs.length = 8) :
    (UInt64.ofNat (toNatBE bs)).toNat = toNatBE bs := by
  have hlt : toNatBE bs < 256 ^ (8 : Nat) := h ▸ toNatBE_lt bs
  exact UInt64.toNat_ofNat_of_lt' hlt

theorem toNat_words {n : Nat} {bs : Bytes} (h : bs.length = 8 * n) :
    Words.toNat (words n bs) = toNatBE bs := by
  induction n generalizing bs with
  | zero =>
    rw [List.eq_nil_of_length_eq_zero h]
    rfl
  | succ n ih =>
    have hfront : (bs.take (bs.length - 8)).length = 8 * n := by
      rw [List.length_take]
      omega
    have hlast : (bs.drop (bs.length - 8)).length = 8 := by
      rw [List.length_drop]
      omega
    calc Words.toNat (words (n + 1) bs)
        = toNatBE (bs.drop (bs.length - 8)) +
            2 ^ (64 : Nat) * toNatBE (bs.take (bs.length - 8)) := by
          rw [words, Words.toNat, toNat_word hlast, ih hfront]
      _ = toNatBE (bs.take (bs.length - 8) ++ bs.drop (bs.length - 8)) := by
          rw [toNatBE_append, hlast]
      _ = toNatBE bs := by rw [List.take_append_drop]

end Bytes

end ShieldedWallet
