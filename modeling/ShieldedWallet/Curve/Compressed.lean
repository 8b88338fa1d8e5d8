/-
Compressed points.

A point is written in 32 bytes: its second coordinate, least significant byte
first, with the topmost bit telling which of the two possible first
coordinates is meant.  The bit is set if the first coordinate is larger than
its negation as a number.

* `compress` — the 32 bytes of a point;
* `decompress?` — the point that 32 bytes write, if the second coordinate is a
  least residue, a point of the curve has it, and that point lies in the
  subgroup of prime order;
* `sqrt?_sound` — an answer of the square root squares to its argument.

Design notes: a first coordinate of zero is its own negation, so the topmost
bit has nothing to choose there and either value is read.  The square root runs
the method of Tonelli and Shanks over the 2-part of the multiplicative group,
of order `2 ^ 28`, from the top bit down; the answer is checked, so that a
non-square is refused.
-/
import ShieldedWallet.Curve.Point

namespace ShieldedWallet

-- Powers of numbers are those of the core library, whatever else is imported.
attribute [local instance (high)] instPowNat

namespace Felt

/-! ### Square roots -/

/-- The exponent of two in the order of the multiplicative group. -/
def twoAdicity : Nat := 28

/-- The odd part of the order of the multiplicative group. -/
def oddPart : Nat := (fieldOrder - 1) / 2 ^ twoAdicity

/-- A generator of the 2-part of the multiplicative group: the odd power of a non-square. -/
def twoGenerator : Felt := pow 5 oddPart

/-- Squares an element the given number of times. -/
def squareTimes (a : Felt) : Nat → Felt
  | 0 => a
  | n + 1 => squareTimes (a * a) n

/-- Corrects the candidate `root` while its square is off by the factor `t` of order dividing
`2 ^ k`, with `z` of order `2 ^ (k + 1)`. -/
def correctRoot : (k : Nat) → (root t z : Felt) → Felt
  | 0, root, _, _ => root
  | k + 1, root, t, z =>
    if squareTimes t k = 1 then correctRoot k root t (z * z)
    else correctRoot k (root * z) (t * (z * z)) (z * z)

/-- The candidate, if its square is `a`. -/
def checkRoot (a root : Felt) : Option Felt := if root * root = a then some root else none

/-- A square root of a square. -/
def sqrt? (a : Felt) : Option Felt :=
  checkRoot a <|
    correctRoot (twoAdicity - 1) (pow a ((oddPart + 1) / 2)) (pow a oddPart) twoGenerator

theorem checkRoot_sound {a root r : Felt} (h : checkRoot a root = some r) : r * r = a := by
  unfold checkRoot at h
  split at h
  · rename_i hr
    obtain rfl := Option.some.inj h
    exact hr
  · cases h

theorem sqrt?_sound {a r : Felt} (h : sqrt? a = some r) : r * r = a := checkRoot_sound h

end Felt

namespace Point

/-- The first coordinate is larger than its negation. -/
def isNegative (p : Point) : Bool := decide (¬ p.x ≤ -p.x)

/-- The point in 32 bytes. -/
def compress (p : Point) : FixedBytes 32 :=
  .ofNatLE 32 (p.y.val + if p.isNegative then 2 ^ (255 : Nat) else 0)

/-- A point of the curve with the given second coordinate and choice of the first. -/
def ofY? (y : Felt) (negative : Bool) : Option Point := do
  let numerator := 1 - y * y
  let denominator := 1 - d * (y * y)
  if denominator = 0 then none
  else
    let x ← Felt.sqrt? (numerator * denominator.inv)
    let positive := if x ≤ -x then x else -x
    some ⟨if negative then -positive else positive, y⟩

/-- The point that 32 bytes write. -/
def decompress? (b : FixedBytes 32) : Option Point := do
  let n := b.toNatLE
  let y ← Felt.ofResidue? (n % 2 ^ (255 : Nat))
  let p ← ofY? y (decide (2 ^ (255 : Nat) ≤ n))
  if p.InSubgroup then some p else none

end Point

end ShieldedWallet
