/-
The field of the circuit.

Everything that the circuit hashes is an element of a prime field of
`fieldOrder` elements, about 254 bits wide.  Elements are kept as their least
residues, so that equality of elements is equality of numbers.

* `toNat_ofNat` — a number enters the field modulo `fieldOrder`;
* `ofBytesBE?` and `ofBytesLE?` read 32 bytes and refuse every number that is
  not a least residue, so an element has one spelling in each byte order;
* `ofBytesBE?_eq`, `ofBytesLE?_eq` — the words that they go through hold the
  number that the bytes write.

Design notes: arithmetic is that of `Fin`.  Powers go by repeated squaring over
the binary digits of the exponent, and inverses by raising to the order less
two, which sends zero to zero.
-/
import ShieldedWallet.Bytes.Words

namespace ShieldedWallet

-- Powers of numbers are those of the core library, whatever else is imported.
attribute [local instance (high)] instPowNat

/-- The number of elements of the circuit's field. -/
def fieldOrder : Nat :=
  21888242871839275222246405745257275088548364400416034343698204186575808495617

attribute [local instance (high)] Zero.ofOfNat0 in
instance : NeZero fieldOrder := ⟨by decide⟩

/-- An element of the circuit's field, as its least residue. -/
abbrev Felt := Fin fieldOrder

theorem fieldOrder_lt : fieldOrder < 2 ^ (254 : Nat) := by decide

theorem fieldOrder_lt_bytes : fieldOrder < 256 ^ (32 : Nat) := by decide

namespace Felt

/-- The residue of a number. -/
def ofNat (n : Nat) : Felt := Fin.ofNat fieldOrder n

@[simp] theorem toNat_ofNat (n : Nat) : (ofNat n).val = n % fieldOrder := rfl

@[simp] theorem ofNat_val (a : Felt) : ofNat a.val = a :=
  Fin.ext (Nat.mod_eq_of_lt a.isLt)

/-- The power of `a` whose exponent is written by the `w` low binary digits of `n`. -/
def powBits (a : Felt) : (w n : Nat) → Felt
  | 0, _ => 1
  | w + 1, n =>
    let half := powBits a w (n / 2)
    if n % 2 = 1 then half * half * a else half * half

/-- The power of an element, for exponents below `2 ^ 256`. -/
def pow (a : Felt) (n : Nat) : Felt := powBits a 256 n

/-- The inverse of an element; that of zero is zero. -/
def inv (a : Felt) : Felt := pow a (fieldOrder - 2)

/-! ### Bytes -/

/-- The element in 32 bytes, most significant first. -/
def toBytesBE (a : Felt) : FixedBytes 32 := .ofNatBE 32 a.val

/-- The element in 32 bytes, least significant first. -/
def toBytesLE (a : Felt) : FixedBytes 32 := .ofNatLE 32 a.val

/-- The element with the given least residue; numbers at or above the order are refused. -/
def ofResidue? (n : Nat) : Option Felt := if h : n < fieldOrder then some ⟨n, h⟩ else none

theorem ofResidue?_eq_some_iff {n : Nat} {a : Felt} : ofResidue? n = some a ↔ n = a.val := by
  constructor
  · intro h
    unfold ofResidue? at h
    split at h
    · cases h
      rfl
    · cases h
  · rintro rfl
    exact dif_pos a.isLt

theorem ofResidue?_eq_none_iff {n : Nat} : ofResidue? n = none ↔ fieldOrder ≤ n := by
  rw [ofResidue?]
  split <;> simp <;> omega

/-- The element that 32 bytes write, most significant first.  They are taken in four words. -/
def ofBytesBE? (b : FixedBytes 32) : Option Felt := ofResidue? (Words.toNat (b.toList.words 4))

/-- The element that 32 bytes write, least significant first. -/
def ofBytesLE? (b : FixedBytes 32) : Option Felt := ofBytesBE? b.reverse

theorem ofBytesBE?_eq (b : FixedBytes 32) : ofBytesBE? b = ofResidue? b.toNatBE :=
  congrArg ofResidue? (Bytes.toNat_words b.length_eq)

theorem ofBytesLE?_eq (b : FixedBytes 32) : ofBytesLE? b = ofResidue? b.toNatLE := by
  rw [ofBytesLE?, ofBytesBE?_eq, FixedBytes.toNatBE_reverse]

/-! ### Text -/

/-- The least residue in decimal digits. -/
def toDecimal (a : Felt) : String := toString a.val

end Felt

end ShieldedWallet
