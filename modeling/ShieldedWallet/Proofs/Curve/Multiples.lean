/-
Multiples of points are those of a group.

The wallet's curve is an Edwards curve whose coefficient is no square, so its
points are a group.  A pair of coordinates denotes an element of the group if
it has these coordinates, and the operations on coordinates are those of the
group:

* `Point.Denotes` — the coordinates are those of an element;
* `Point.Projective.Represents` — the same on projective coordinates, kept by
  `Projective.add` and `Projective.scaleBits`;
* `Point.nsmul_denotes`, `Point.add_denotes` — multiples and sums;
* `Point.base_add` — multiples of the generator add up as the scalars do,
  modulo the order of the subgroup;
* `Point.scale_base` — a multiple of a multiple of the generator is the multiple
  by the product.
-/
import Mathlib.NumberTheory.LegendreSymbol.Basic
import ShieldedWallet.Curve.Point
import ShieldedWallet.Proofs.Curve.Edwards
import ShieldedWallet.Proofs.Curve.Residues

namespace ShieldedWallet.Point

/-! ### The group -/

/-- The coefficient of the curve is no square, by the criterion of Euler. -/
theorem not_isSquare_d : ¬ IsSquare d.toResidue := by
  have hpow : Felt.pow d (fieldOrder / 2) ≠ 1 := by decide +kernel
  have hzero : d.toResidue ≠ 0 := by
    rw [← Felt.toResidue_zero]
    exact fun h => absurd (Felt.toResidue_inj h) (by decide)
  rw [ZMod.euler_criterion fieldOrder hzero, ← Felt.toResidue_pow d (by decide),
    ← Felt.toResidue_one]
  exact fun h => hpow (Felt.toResidue_inj h)

instance : Edwards.Complete d.toResidue where
  two_ne_zero h := by
    have htwo : (2 : Felt).toResidue = 0 := h
    rw [← Felt.toResidue_zero] at htwo
    exact absurd (Felt.toResidue_inj htwo) (by decide)
  not_isSquare := not_isSquare_d

/-- The points of the curve as a group. -/
abbrev CurveGroup : Type := Edwards d.toResidue

/-- The coordinates are those of a group element. -/
structure Denotes (p : Point) (P : CurveGroup) : Prop where
  x_eq : p.x.toResidue = P.x
  y_eq : p.y.toResidue = P.y

theorem Denotes.unique {p q : Point} {P : CurveGroup} (hp : p.Denotes P) (hq : q.Denotes P) :
    p = q :=
  Point.ext (Felt.toResidue_inj (hp.x_eq.trans hq.x_eq.symm))
    (Felt.toResidue_inj (hp.y_eq.trans hq.y_eq.symm))

/-- The group element with the coordinates of a point of the curve. -/
def OnCurve.element {p : Point} (h : p.OnCurve) : CurveGroup where
  x := p.x.toResidue
  y := p.y.toResidue
  equation := by
    have hresidue := congrArg Felt.toResidue h
    simp only [Felt.toResidue_add, Felt.toResidue_mul, Felt.toResidue_one] at hresidue
    linear_combination hresidue

theorem OnCurve.denotes {p : Point} (h : p.OnCurve) : p.Denotes h.element := ⟨rfl, rfl⟩

theorem identity_denotes : identity.Denotes 0 := ⟨Felt.toResidue_zero, Felt.toResidue_one⟩

/-! ### Projective coordinates -/

/-- The quotients of the coordinates are those of a group element. -/
structure Projective.Represents (p : Projective) (P : CurveGroup) : Prop where
  z_ne_zero : p.z.toResidue ≠ 0
  x_eq : p.x.toResidue = P.x * p.z.toResidue
  y_eq : p.y.toResidue = P.y * p.z.toResidue

theorem Denotes.toProjective {p : Point} {P : CurveGroup} (hp : p.Denotes P) :
    p.toProjective.Represents P where
  z_ne_zero := by simp [Point.toProjective]
  x_eq := by simp [Point.toProjective, hp.x_eq]
  y_eq := by simp [Point.toProjective, hp.y_eq]

namespace Projective

variable {p q : Projective} {P Q : CurveGroup}

/-- One step of the addition law. -/
theorem Represents.add (hp : p.Represents P) (hq : q.Represents Q) :
    (p.add q).Represents (P + Q) := by
  let z := p.z.toResidue * q.z.toResidue
  have hz : z ≠ 0 := mul_ne_zero hp.z_ne_zero hq.z_ne_zero
  have hdenominator : (p.add q).z.toResidue =
      z ^ 4 * ((1 - Edwards.cross P Q) * (1 + Edwards.cross P Q)) := by
    simp only [Projective.add, Felt.toResidue_mul, Felt.toResidue_add, Felt.toResidue_sub, hp.x_eq,
      hp.y_eq, hq.x_eq, hq.y_eq, Edwards.cross, z]
    ring
  refine ⟨?_, ?_, ?_⟩
  · rw [hdenominator]
    exact mul_ne_zero (pow_ne_zero 4 hz)
      (mul_ne_zero (Edwards.one_sub_cross_ne_zero P Q) (Edwards.one_add_cross_ne_zero P Q))
  · have hx : (p.add q).x.toResidue =
        z ^ 4 * (1 - Edwards.cross P Q) * (P.x * Q.y + P.y * Q.x) := by
      simp only [Projective.add, Felt.toResidue_mul, Felt.toResidue_add, Felt.toResidue_sub,
        hp.x_eq, hp.y_eq, hq.x_eq, hq.y_eq, Edwards.cross, z]
      ring
    rw [hx, hdenominator, ← Edwards.add_x]
    ring
  · have hy : (p.add q).y.toResidue =
        z ^ 4 * (1 + Edwards.cross P Q) * (P.y * Q.y - P.x * Q.x) := by
      simp only [Projective.add, Felt.toResidue_mul, Felt.toResidue_add, Felt.toResidue_sub,
        hp.x_eq, hp.y_eq, hq.x_eq, hq.y_eq, Edwards.cross, z]
      ring
    rw [hy, hdenominator, ← Edwards.add_y]
    ring

/-- All steps of a multiple: the digits of the factor, from the topmost down. -/
theorem Represents.scaleBits (hp : p.Represents P) (w n : Nat) :
    (p.scaleBits w n).Represents ((n % 2 ^ w) • P) := by
  induction w generalizing n with
  | zero =>
    rw [Nat.pow_zero, Nat.mod_one, zero_nsmul]
    exact identity_denotes.toProjective
  | succ w ih =>
    have hdouble := (ih (n / 2)).add (ih (n / 2))
    rw [mod_two_pow_succ, add_nsmul, add_nsmul]
    rcases Nat.mod_two_eq_zero_or_one n with hbit | hbit
    · rw [hbit, zero_nsmul, add_zero]
      simpa [Projective.scaleBits, hbit] using hdouble
    · rw [hbit, one_nsmul]
      simpa [Projective.scaleBits, hbit] using hdouble.add hp

theorem Represents.toPoint (hp : p.Represents P) : p.toPoint.Denotes P where
  x_eq := by
    rw [Projective.toPoint, Felt.toResidue_mul, Felt.toResidue_inv, hp.x_eq]
    exact mul_inv_cancel_right₀ hp.z_ne_zero P.x
  y_eq := by
    rw [Projective.toPoint, Felt.toResidue_mul, Felt.toResidue_inv, hp.y_eq]
    exact mul_inv_cancel_right₀ hp.z_ne_zero P.y

end Projective

/-! ### Sums and multiples -/

variable {p q : Point} {P Q : CurveGroup}

theorem add_denotes (hp : p.Denotes P) (hq : q.Denotes Q) : (p + q).Denotes (P + Q) :=
  (hp.toProjective.add hq.toProjective).toPoint

theorem nsmul_denotes (hp : p.Denotes P) {n : Nat} (hn : n < 2 ^ 256) :
    (nsmul n p).Denotes (n • P) := by
  have hscale := (hp.toProjective.scaleBits 256 n).toPoint
  rwa [Nat.mod_eq_of_lt hn] at hscale

theorem scale_denotes (hp : p.Denotes P) (s : Scalar) : (p.scale s).Denotes (s.val • P) :=
  nsmul_denotes hp (Nat.lt_trans s.isLt (by decide))

/-! ### The generator -/

theorem generator_onCurve : generator.OnCurve := by decide +kernel

/-- The generator as a group element. -/
def generatorElement : CurveGroup := generator_onCurve.element

theorem generator_inSubgroup : generator.InSubgroup := by decide +kernel

theorem groupOrder_nsmul : groupOrder • generatorElement = 0 := by
  have hdenotes : (nsmul groupOrder generator).Denotes (groupOrder • generatorElement) :=
    nsmul_denotes generator_onCurve.denotes (by decide)
  rw [generator_inSubgroup] at hdenotes
  exact Edwards.ext (hdenotes.x_eq.symm.trans identity_denotes.x_eq)
    (hdenotes.y_eq.symm.trans identity_denotes.y_eq)

/-- A multiple of the generator depends on the factor modulo the order of the subgroup. -/
theorem mod_nsmul_generator (n : Nat) :
    (n % groupOrder) • generatorElement = n • generatorElement := by
  conv => rhs; rw [← Nat.mod_add_div n groupOrder]
  rw [add_nsmul, mul_nsmul, groupOrder_nsmul, nsmul_zero, add_zero]

theorem base_denotes (s : Scalar) : (base s).Denotes (s.val • generatorElement) :=
  scale_denotes generator_onCurve.denotes s

/-- Multiples of the generator add up as the scalars do. -/
theorem base_add (s t : Scalar) : base (s + t) = base s + base t := by
  refine (base_denotes (s + t)).unique ?_
  rw [Fin.val_add, mod_nsmul_generator, add_nsmul]
  exact add_denotes (base_denotes s) (base_denotes t)

/-- A multiple of a multiple of the generator is the multiple by the product. -/
theorem scale_base (s t : Scalar) : (base s).scale t = base (t * s) := by
  refine Denotes.unique ?_ (base_denotes (t * s))
  rw [Fin.val_mul, mod_nsmul_generator, mul_nsmul']
  exact scale_denotes (base_denotes s) t

end ShieldedWallet.Point
