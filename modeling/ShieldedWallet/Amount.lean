/-
Amounts: unsigned numbers of 256 bits.

Ether, token amounts, token ids, fees and proof coordinates are all amounts.
No operation wraps around: sums and products are partial and yield nothing
where the exact result does not fit.

* `add?_eq_some_iff`, `mul?_eq_some_iff` — a checked operation succeeds exactly
  if the exact result fits, and then gives it;
* `ofBytesBE_toBytesBE` — 32 bytes hold every amount.

Design notes: an amount is a number with its bound, so laws about amounts are
laws about numbers; the bound is the constant `amountBound`.
-/
import ShieldedWallet.Field

namespace ShieldedWallet

-- Powers of numbers are those of the core library, whatever else is imported.
attribute [local instance (high)] instPowNat

/-- The number of amounts. -/
def amountBound : Nat := 2 ^ (256 : Nat)

/-- An unsigned number of 256 bits. -/
@[ext] structure Amount where
  toNat : Nat
  isLt : toNat < amountBound
  deriving DecidableEq

namespace Amount

/-- The amount of a number that fits. -/
def ofNat? (n : Nat) : Option Amount := if h : n < amountBound then some ⟨n, h⟩ else none

/-- The amount of the 256 low bits of a number. -/
def ofNat (n : Nat) : Amount := ⟨n % amountBound, Nat.mod_lt _ (by decide)⟩

instance : OfNat Amount n := ⟨ofNat n⟩

instance : Inhabited Amount := ⟨0⟩

instance : LE Amount := ⟨fun a b => a.toNat ≤ b.toNat⟩

instance : LT Amount := ⟨fun a b => a.toNat < b.toNat⟩

instance (a b : Amount) : Decidable (a ≤ b) := inferInstanceAs (Decidable (a.toNat ≤ b.toNat))

instance (a b : Amount) : Decidable (a < b) := inferInstanceAs (Decidable (a.toNat < b.toNat))

theorem le_def {a b : Amount} : a ≤ b ↔ a.toNat ≤ b.toNat := Iff.rfl

theorem lt_def {a b : Amount} : a < b ↔ a.toNat < b.toNat := Iff.rfl

/-- The largest amount. -/
def max : Amount := ⟨amountBound - 1, by decide⟩

@[simp] theorem toNat_zero : (0 : Amount).toNat = 0 := rfl

theorem eq_zero_iff {a : Amount} : a = 0 ↔ a.toNat = 0 :=
  ⟨fun h => h ▸ rfl, fun h => Amount.ext h⟩

theorem ofNat?_eq_some_iff {n : Nat} {a : Amount} : ofNat? n = some a ↔ a.toNat = n := by
  unfold ofNat?
  constructor
  · intro h
    split at h
    · cases h; rfl
    · cases h
  · rintro rfl
    simp [a.isLt]

/-! ### Checked arithmetic -/

/-- The sum, if it fits. -/
def add? (a b : Amount) : Option Amount := ofNat? (a.toNat + b.toNat)

/-- The product with a number, if it fits. -/
def mul? (a : Amount) (n : Nat) : Option Amount := ofNat? (a.toNat * n)

/-- The difference, or zero where it would be negative. -/
def monus (a b : Amount) : Amount := ⟨a.toNat - b.toNat, Nat.lt_of_le_of_lt (Nat.sub_le _ _) a.isLt⟩

/-- The sum of a list, if every partial sum fits. -/
def sum? : List Amount → Option Amount := List.foldlM add? 0

theorem add?_eq_some_iff {a b c : Amount} : a.add? b = some c ↔ c.toNat = a.toNat + b.toNat :=
  ofNat?_eq_some_iff

theorem mul?_eq_some_iff {a c : Amount} {n : Nat} :
    a.mul? n = some c ↔ c.toNat = a.toNat * n :=
  ofNat?_eq_some_iff

@[simp] theorem toNat_monus (a b : Amount) : (a.monus b).toNat = a.toNat - b.toNat := rfl

/-! ### Bytes, field elements and text -/

/-- The amount in 32 bytes, most significant first. -/
def toBytesBE (a : Amount) : FixedBytes 32 := .ofNatBE 32 a.toNat

/-- The amount that 32 bytes write, most significant first. -/
def ofBytesBE (b : FixedBytes 32) : Amount :=
  ⟨b.toNatBE, by
    have h := Bytes.toNatBE_lt b.toList
    rw [b.length_eq, show (256 : Nat) ^ 32 = amountBound by decide] at h
    exact h⟩

theorem ofBytesBE_toBytesBE (a : Amount) : ofBytesBE a.toBytesBE = a := by
  have h : a.toNat < 256 ^ 32 := a.isLt
  apply Amount.ext
  simp only [ofBytesBE, toBytesBE, FixedBytes.toNatBE, FixedBytes.ofNatBE]
  rw [Bytes.toNatBE_ofNatBE, Nat.mod_eq_of_lt h]

theorem toBytesBE_ofBytesBE (b : FixedBytes 32) : (ofBytesBE b).toBytesBE = b := by
  have h := Bytes.ofNatBE_toNatBE b.toList
  rw [b.length_eq] at h
  exact FixedBytes.ext h

/-- The amount in the circuit's field, where it is reduced modulo the order. -/
def toFelt (a : Amount) : Felt := Felt.ofNat a.toNat

/-- The least residue of a field element as an amount. -/
def ofFelt (a : Felt) : Amount :=
  ⟨a.val, Nat.lt_trans a.isLt (by decide)⟩

/-- The amount in decimal digits. -/
def toDecimal (a : Amount) : String := toString a.toNat

/-- Why a text is no decimal amount. -/
inductive ParseError where
  | invalidCharacter
  | tooLong
  deriving DecidableEq

/-- The amount that digits write behind those of another amount.  They are read from the front, so
of two faults the first one counts. -/
def readDigits (a : Amount) : List Char → Except ParseError Amount
  | [] => .ok a
  | c :: cs =>
    if c.isDigit then
      match ofNat? (10 * a.toNat + (c.toNat - 48)) with
      | some a => readDigits a cs
      | none => .error .tooLong
    else .error .invalidCharacter

/-- The amount that a text of decimal digits writes; the empty text writes zero. -/
def ofDecimal? (text : String) : Except ParseError Amount := readDigits 0 text.toList

end Amount

end ShieldedWallet
