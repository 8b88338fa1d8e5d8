/-
The group of an Edwards curve.

Over a field in which two is not zero, and with a coefficient `d` that is no
square, the points of `x² + y² = 1 + d x² y²` are a commutative group under one
formula for all sums.

* `Edwards.Complete` — the two conditions on field and coefficient;
* `Edwards.cross_sq_ne_one` — no denominator of the formula is zero;
* `Edwards.add_equation` — a sum is on the curve;
* `Edwards.add_x_assoc` — sums are associative in the first coordinate;
* the instance `AddCommGroup (Edwards d)`.

Design notes: associativity is a polynomial identity modulo the equations of
the three points.  It is proved for the first coordinate only.  Rotation by a
quarter turn, `(x, y) ↦ (y, -x)`, is an addition of a point of order four, so it
moves out of sums, and it exchanges the two coordinates.
-/
import Mathlib.Algebra.Field.Basic
import Mathlib.Algebra.Group.Even
import Mathlib.Tactic.FieldSimp
import Mathlib.Tactic.LinearCombination
import Mathlib.Tactic.Ring

namespace ShieldedWallet

/-- A point of the curve `x² + y² = 1 + d x² y²` over a field. -/
@[ext] structure Edwards {K : Type} [Field K] (d : K) where
  x : K
  y : K
  equation : x ^ 2 + y ^ 2 = 1 + d * x ^ 2 * y ^ 2

namespace Edwards

variable {K : Type} [Field K] {d : K}

/-- The addition law has no exceptions: two is not zero and the coefficient is no square. -/
class Complete (d : K) : Prop where
  two_ne_zero : (2 : K) ≠ 0
  not_isSquare : ¬ IsSquare d

/-- The product by which the denominators of a sum differ from one. -/
def cross (p q : Edwards d) : K := d * p.x * q.x * p.y * q.y

theorem cross_comm (p q : Edwards d) : cross p q = cross q p := by
  unfold cross
  ring

/-! ### The neutral point, negation and rotation -/

/-- The neutral point. -/
def zero : Edwards d := ⟨0, 1, by ring⟩

/-- The point with the other first coordinate. -/
def neg (p : Edwards d) : Edwards d := ⟨-p.x, p.y, by linear_combination p.equation⟩

/-- The point turned by a quarter. -/
def rotate (p : Edwards d) : Edwards d := ⟨p.y, -p.x, by linear_combination p.equation⟩

theorem cross_rotate (p q : Edwards d) : cross (rotate p) q = -cross p q := by
  simp only [cross, rotate]
  ring

/-! ### Denominators -/

section Complete

variable [Complete d]

theorem eq_zero_of_mul_sq_eq_sq {a b : K} (h : d * a ^ 2 = b ^ 2) : a = 0 := by
  by_contra ha
  refine Complete.not_isSquare (d := d) ⟨b / a, ?_⟩
  field_simp
  exact h

/-- If the product were one or minus one, `d` would be the square of a quotient of sums, or else
both `q.x + q.y` and `q.x - q.y` would be zero. -/
theorem cross_sq_ne_one (p q : Edwards d) : cross p q ^ 2 ≠ 1 := by
  intro h
  have hp := p.equation
  have hq := q.equation
  have hplus : d * (p.x * p.y * (q.x + q.y)) ^ 2 = (p.x + cross p q * p.y) ^ 2 := by
    unfold cross at h ⊢
    linear_combination d * p.x ^ 2 * p.y ^ 2 * hq - hp + (1 - p.y ^ 2) * h
  have hminus : d * (p.x * p.y * (q.x - q.y)) ^ 2 = (p.x - cross p q * p.y) ^ 2 := by
    unfold cross at h ⊢
    linear_combination d * p.x ^ 2 * p.y ^ 2 * hq - hp + (1 - p.y ^ 2) * h
  have hsum : p.x * p.y * (2 * q.x) = 0 := by
    linear_combination eq_zero_of_mul_sq_eq_sq hplus + eq_zero_of_mul_sq_eq_sq hminus
  have hdouble : 2 * cross p q = 0 := by
    unfold cross
    linear_combination d * q.y * hsum
  have hzero : cross p q = 0 := (mul_eq_zero.mp hdouble).resolve_left (Complete.two_ne_zero d)
  rw [hzero] at h
  simp at h

theorem one_add_cross_ne_zero (p q : Edwards d) : 1 + cross p q ≠ 0 := by
  intro h
  apply cross_sq_ne_one p q
  linear_combination (cross p q - 1) * h

theorem one_sub_cross_ne_zero (p q : Edwards d) : 1 - cross p q ≠ 0 := by
  intro h
  apply cross_sq_ne_one p q
  linear_combination (-1 - cross p q) * h

end Complete

/-! ### Polynomial identities -/

section Identities

variable {x₁ y₁ x₂ y₂ x₃ y₃ : K}

/-- The equation of a sum, multiplied by the squares of both denominators. -/
theorem add_equation (h₁ : x₁ ^ 2 + y₁ ^ 2 = 1 + d * x₁ ^ 2 * y₁ ^ 2)
    (h₂ : x₂ ^ 2 + y₂ ^ 2 = 1 + d * x₂ ^ 2 * y₂ ^ 2) :
    (x₁ * y₂ + y₁ * x₂) ^ 2 * (1 - d * x₁ * x₂ * y₁ * y₂) ^ 2 +
        (y₁ * y₂ - x₁ * x₂) ^ 2 * (1 + d * x₁ * x₂ * y₁ * y₂) ^ 2 =
      (1 + d * x₁ * x₂ * y₁ * y₂) ^ 2 * (1 - d * x₁ * x₂ * y₁ * y₂) ^ 2 +
        d * (x₁ * y₂ + y₁ * x₂) ^ 2 * (y₁ * y₂ - x₁ * x₂) ^ 2 := by
  let a := d * x₁ ^ 2 * y₁ ^ 2
  let b := d * x₂ ^ 2 * y₂ ^ 2
  linear_combination
    ((x₂ ^ 2 + y₂ ^ 2) * (1 + a * b) - b * (x₁ ^ 2 + y₁ ^ 2 + (1 + a))) * h₁ +
      ((1 + a) * (1 + a * b) - a * (x₂ ^ 2 + y₂ ^ 2 + (1 + b))) * h₂

/-- The two ways to add three points agree in the first coordinate: numerators and denominators,
each multiplied by the denominators of its inner sum, and then with each other. -/
theorem add_x_assoc (h₁ : x₁ ^ 2 + y₁ ^ 2 = 1 + d * x₁ ^ 2 * y₁ ^ 2)
    (h₂ : x₂ ^ 2 + y₂ ^ 2 = 1 + d * x₂ ^ 2 * y₂ ^ 2)
    (h₃ : x₃ ^ 2 + y₃ ^ 2 = 1 + d * x₃ ^ 2 * y₃ ^ 2) :
    ((x₁ * y₂ + y₁ * x₂) * (1 - d * x₁ * x₂ * y₁ * y₂) * y₃ +
          (y₁ * y₂ - x₁ * x₂) * (1 + d * x₁ * x₂ * y₁ * y₂) * x₃) *
        ((1 + d * x₂ * x₃ * y₂ * y₃) * (1 - d * x₂ * x₃ * y₂ * y₃) +
          d * x₁ * (x₂ * y₃ + y₂ * x₃) * y₁ * (y₂ * y₃ - x₂ * x₃)) =
      (x₁ * (y₂ * y₃ - x₂ * x₃) * (1 + d * x₂ * x₃ * y₂ * y₃) +
          y₁ * (x₂ * y₃ + y₂ * x₃) * (1 - d * x₂ * x₃ * y₂ * y₃)) *
        ((1 + d * x₁ * x₂ * y₁ * y₂) * (1 - d * x₁ * x₂ * y₁ * y₂) +
          d * (x₁ * y₂ + y₁ * x₂) * x₃ * (y₁ * y₂ - x₁ * x₂) * y₃) := by
  let p₁ := x₁ * y₁
  let p₂ := x₂ * y₂
  let p₃ := x₃ * y₃
  let s := x₂ ^ 2 + y₂ ^ 2 - 1
  -- the numerators are `l + d p₁ p₂ m` and `l + d p₂ p₃ n`
  let l := x₁ * y₂ * y₃ + y₁ * x₂ * y₃ + y₁ * y₂ * x₃ - x₁ * x₂ * x₃
  let m := y₁ * y₂ * x₃ - x₁ * y₂ * y₃ - y₁ * x₂ * y₃ - x₁ * x₂ * x₃
  let n := x₁ * y₂ * y₃ - y₁ * x₂ * y₃ - y₁ * y₂ * x₃ - x₁ * x₂ * x₃
  -- what is left after `d pᵢ²` is replaced by `xᵢ² + yᵢ² - 1` cancels
  linear_combination
    d * p₂ * (-(l * p₂) - m * (p₃ * (y₂ ^ 2 - x₂ ^ 2) + p₂ * (y₃ ^ 2 - x₃ ^ 2)) - n * p₃ * s) * h₁ +
      d * p₂ * (m * p₁ * (d * p₃ ^ 2) - n * p₃ * (d * p₁ ^ 2)) * h₂ +
      d * p₂ *
        (l * p₂ + m * p₁ * s + n * (p₁ * (y₂ ^ 2 - x₂ ^ 2) + p₂ * (y₁ ^ 2 - x₁ ^ 2))) * h₃

end Identities

/-! ### Sums -/

variable [Complete d]

/-- The sum of two points. -/
def add (p q : Edwards d) : Edwards d where
  x := (p.x * q.y + p.y * q.x) / (1 + cross p q)
  y := (p.y * q.y - p.x * q.x) / (1 - cross p q)
  equation := by
    have hadd := one_add_cross_ne_zero p q
    have hsub := one_sub_cross_ne_zero p q
    have hsum := add_equation p.equation q.equation
    have hcross : d * p.x * q.x * p.y * q.y = cross p q := rfl
    rw [hcross] at hsum
    field_simp
    linear_combination hsum

theorem add_x_mul (p q : Edwards d) :
    (add p q).x * (1 + cross p q) = p.x * q.y + p.y * q.x :=
  div_mul_cancel₀ _ (one_add_cross_ne_zero p q)

theorem add_y_mul (p q : Edwards d) :
    (add p q).y * (1 - cross p q) = p.y * q.y - p.x * q.x :=
  div_mul_cancel₀ _ (one_sub_cross_ne_zero p q)

theorem add_comm' (p q : Edwards d) : add p q = add q p := by
  have hx : p.x * q.y + p.y * q.x = q.x * p.y + q.y * p.x := by ring
  have hy : p.y * q.y - p.x * q.x = q.y * p.y - q.x * p.x := by ring
  apply Edwards.ext
  · simp only [add, cross_comm p q, hx]
  · simp only [add, cross_comm p q, hy]

theorem zero_add' (p : Edwards d) : add zero p = p := by
  have hcross : cross zero p = 0 := by simp [cross, zero]
  apply Edwards.ext
  · simp only [add, hcross]
    simp [zero]
  · simp only [add, hcross]
    simp [zero]

theorem neg_add' (p : Edwards d) : add (neg p) p = zero := by
  have hx : (neg p).x * p.y + (neg p).y * p.x = 0 := by simp only [neg]; ring
  have hy : (neg p).y * p.y - (neg p).x * p.x = 1 - cross (neg p) p := by
    simp only [neg, cross]
    linear_combination p.equation
  apply Edwards.ext
  · simp only [add, hx, zero_div, zero]
  · simp only [add, hy, zero]
    exact div_self (one_sub_cross_ne_zero (neg p) p)

theorem rotate_add (p q : Edwards d) : add (rotate p) q = rotate (add p q) := by
  have hx : (rotate p).x * q.y + (rotate p).y * q.x = p.y * q.y - p.x * q.x := by
    simp only [rotate]
    ring
  have hy : (rotate p).y * q.y - (rotate p).x * q.x = -(p.x * q.y + p.y * q.x) := by
    simp only [rotate]
    ring
  apply Edwards.ext
  · show ((rotate p).x * q.y + (rotate p).y * q.x) / (1 + cross (rotate p) q) =
      (p.y * q.y - p.x * q.x) / (1 - cross p q)
    rw [hx, cross_rotate, ← sub_eq_add_neg]
  · show ((rotate p).y * q.y - (rotate p).x * q.x) / (1 - cross (rotate p) q) =
      -((p.x * q.y + p.y * q.x) / (1 + cross p q))
    rw [hy, cross_rotate, sub_neg_eq_add, neg_div]

theorem add_assoc_x (p q r : Edwards d) : (add (add p q) r).x = (add p (add q r)).x := by
  have hleft := one_add_cross_ne_zero (add p q) r
  have hright := one_add_cross_ne_zero p (add q r)
  have hpq : (1 + cross p q) * (1 - cross p q) ≠ 0 :=
    mul_ne_zero (one_add_cross_ne_zero p q) (one_sub_cross_ne_zero p q)
  have hqr : (1 + cross q r) * (1 - cross q r) ≠ 0 :=
    mul_ne_zero (one_add_cross_ne_zero q r) (one_sub_cross_ne_zero q r)
  -- numerators and denominators, multiplied by the denominators of the inner sums
  have hnum : (1 + cross p q) * (1 - cross p q) * ((add p q).x * r.y + (add p q).y * r.x) =
      (p.x * q.y + p.y * q.x) * (1 - cross p q) * r.y +
        (p.y * q.y - p.x * q.x) * (1 + cross p q) * r.x := by
    linear_combination (1 - cross p q) * r.y * add_x_mul p q +
      (1 + cross p q) * r.x * add_y_mul p q
  have hden : (1 + cross p q) * (1 - cross p q) * (1 + cross (add p q) r) =
      (1 + cross p q) * (1 - cross p q) +
        d * (p.x * q.y + p.y * q.x) * r.x * (p.y * q.y - p.x * q.x) * r.y := by
    rw [cross.eq_def (add p q) r]
    linear_combination d * r.x * r.y * (1 - cross p q) * (add p q).y * add_x_mul p q +
      d * r.x * r.y * (p.x * q.y + p.y * q.x) * add_y_mul p q
  have hnum' : (1 + cross q r) * (1 - cross q r) * (p.x * (add q r).y + p.y * (add q r).x) =
      p.x * (q.y * r.y - q.x * r.x) * (1 + cross q r) +
        p.y * (q.x * r.y + q.y * r.x) * (1 - cross q r) := by
    linear_combination (1 - cross q r) * p.y * add_x_mul q r +
      (1 + cross q r) * p.x * add_y_mul q r
  have hden' : (1 + cross q r) * (1 - cross q r) * (1 + cross p (add q r)) =
      (1 + cross q r) * (1 - cross q r) +
        d * p.x * (q.x * r.y + q.y * r.x) * p.y * (q.y * r.y - q.x * r.x) := by
    rw [cross.eq_def p (add q r)]
    linear_combination d * p.x * p.y * (1 - cross q r) * (add q r).y * add_x_mul q r +
      d * p.x * p.y * (q.x * r.y + q.y * r.x) * add_y_mul q r
  have hassoc := add_x_assoc p.equation q.equation r.equation
  have hcross : d * p.x * q.x * p.y * q.y = cross p q := rfl
  have hcross' : d * q.x * r.x * q.y * r.y = cross q r := rfl
  rw [hcross, hcross', ← hnum, ← hden', ← hnum', ← hden] at hassoc
  rw [add.eq_def (add p q) r, add.eq_def p (add q r), div_eq_div_iff hleft hright]
  apply mul_left_cancel₀ (mul_ne_zero hpq hqr)
  linear_combination hassoc

theorem add_assoc' (p q r : Edwards d) : add (add p q) r = add p (add q r) := by
  apply Edwards.ext
  · exact add_assoc_x p q r
  · -- the second coordinate of a point is the first one of the rotated point
    have hrotated := add_assoc_x (rotate p) q r
    rwa [rotate_add, rotate_add, rotate_add] at hrotated

instance : Zero (Edwards d) := ⟨zero⟩

instance : Add (Edwards d) := ⟨add⟩

instance : Neg (Edwards d) := ⟨neg⟩

instance : AddCommGroup (Edwards d) where
  add_assoc := add_assoc'
  zero_add := zero_add'
  add_zero p := (add_comm' p zero).trans (zero_add' p)
  add_comm := add_comm'
  neg_add_cancel := neg_add'
  nsmul := nsmulRec
  zsmul := zsmulRec

theorem add_x (p q : Edwards d) :
    (p + q).x * (1 + cross p q) = p.x * q.y + p.y * q.x :=
  add_x_mul p q

theorem add_y (p q : Edwards d) :
    (p + q).y * (1 - cross p q) = p.y * q.y - p.x * q.x :=
  add_y_mul p q

end Edwards

end ShieldedWallet
