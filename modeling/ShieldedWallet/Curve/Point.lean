/-
The twisted Edwards curve of the wallet's keys.

Points satisfy `x² + y² = 1 + d x² y²` over the circuit's field, so their
coordinates can be hashed as they are.  The curve's group has order eight times
the prime `groupOrder`, and keys live in the subgroup of that prime order.

* `Point.add` — the sum of two points, by the one formula that the complete
  addition law needs;
* `Point.scale` — a multiple of a point, computed on projective coordinates;
* `Point.OnCurve`, `Point.InSubgroup` — membership, both decidable.

Design notes: a point is a pair of coordinates without a proof of membership;
points come from the generator, from sums and multiples, or from the reader of
compressed points, which checks membership.  Multiples go through the doubling
and addition of the same projective formula, and one inversion at the end.
-/
import ShieldedWallet.Field

namespace ShieldedWallet

/-- The order of the subgroup that keys live in. -/
def groupOrder : Nat :=
  2736030358979909402780800718157159386076813972158567259200215660948447373041

attribute [local instance (high)] Zero.ofOfNat0 in
instance : NeZero groupOrder := ⟨by decide⟩

/-- A multiplier of points, as a residue modulo the order of the subgroup. -/
abbrev Scalar := Fin groupOrder

theorem groupOrder_lt_fieldOrder : groupOrder < fieldOrder := by decide

namespace Scalar

/-- The residue of a number. -/
def ofNat (n : Nat) : Scalar := Fin.ofNat groupOrder n

/-- The residue of the number that bytes of any count write, least significant first. -/
def ofBytes (bs : Bytes) : Scalar := ofNat (Bytes.toNatLE bs)

/-- The scalar as an element of the circuit's field, which is the larger one. -/
def toFelt (s : Scalar) : Felt := ⟨s.val, Nat.lt_trans s.isLt groupOrder_lt_fieldOrder⟩

/-- The residue of a field element modulo the order of the subgroup. -/
def ofFelt (a : Felt) : Scalar := ofNat a.val

/-- The least residue in decimal digits. -/
def toDecimal (s : Scalar) : String := toString s.val

theorem toFelt_inj {s t : Scalar} (h : s.toFelt = t.toFelt) : s = t := by
  have hval : s.toFelt.val = t.toFelt.val := congrArg Fin.val h
  exact Fin.ext hval

end Scalar

/-- A point by its two coordinates. -/
@[ext] structure Point where
  /-- The coordinate that changes sign under negation. -/
  x : Felt
  /-- The coordinate that stays. -/
  y : Felt
  deriving DecidableEq

namespace Point

/-- The coefficient `d` of the curve, which is no square. -/
def d : Felt :=
  9706598848417545097372247223557719406784115219466060233080913168975159366771

/-- The neutral point. -/
def identity : Point := ⟨0, 1⟩

/-- The generator of the subgroup. -/
def generator : Point :=
  ⟨19698561148652590122159747500897617769866003486955115824547446575314762165298,
   19298250018296453272277890825869354524455968081175474282777126169995084727839⟩

/-- The coordinates satisfy the equation of the curve. -/
def OnCurve (p : Point) : Prop :=
  p.x * p.x + p.y * p.y = 1 + d * (p.x * p.x) * (p.y * p.y)

instance (p : Point) : Decidable p.OnCurve := inferInstanceAs (Decidable (_ = _))

/-! ### Projective coordinates -/

/-- A point `(x / z, y / z)` by numerators and denominator. -/
structure Projective where
  /-- The numerator of the first coordinate. -/
  x : Felt
  /-- The numerator of the second coordinate. -/
  y : Felt
  /-- The denominator of both. -/
  z : Felt

/-- The point with denominator one. -/
def toProjective (p : Point) : Projective := ⟨p.x, p.y, 1⟩

/-- The sum by the complete addition law; the same formula doubles. -/
def Projective.add (p q : Projective) : Projective :=
  let a := p.z * q.z
  let b := a * a
  let xx := p.x * q.x
  let yy := p.y * q.y
  let e := d * xx * yy
  let f := b - e
  let g := b + e
  ⟨a * f * ((p.x + p.y) * (q.x + q.y) - xx - yy), a * g * (yy - xx), f * g⟩

/-- Divides by the denominator. -/
def Projective.toPoint (p : Projective) : Point :=
  let inv := p.z.inv
  ⟨p.x * inv, p.y * inv⟩

/-- The multiple whose factor is written by the `w` low binary digits of `n`. -/
def Projective.scaleBits (p : Projective) : (w n : Nat) → Projective
  | 0, _ => identity.toProjective
  | w + 1, n =>
    let half := scaleBits p w (n / 2)
    let double := half.add half
    if n % 2 = 1 then double.add p else double

/-- The sum of two points. -/
def add (p q : Point) : Point := (p.toProjective.add q.toProjective).toPoint

instance : Add Point := ⟨add⟩

/-- The `n`-fold multiple of a point, for `n` below `2 ^ 256`. -/
def nsmul (n : Nat) (p : Point) : Point := (p.toProjective.scaleBits 256 n).toPoint

/-- The multiple of a point by a scalar. -/
def scale (s : Scalar) (p : Point) : Point := nsmul s.val p

/-- The multiple of the generator by a scalar. -/
def base (s : Scalar) : Point := generator.scale s

/-- The point has an order that divides that of the subgroup. -/
def InSubgroup (p : Point) : Prop := nsmul groupOrder p = identity

instance (p : Point) : Decidable p.InSubgroup := inferInstanceAs (Decidable (_ = _))

end Point

end ShieldedWallet
