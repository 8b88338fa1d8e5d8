/-
Compressed points are read back.

A point of the subgroup is written by its second coordinate and a bit that
chooses the first.  Reading takes a square root for the first coordinate, which
exists because the point is on the curve, and the method of Tonelli and Shanks
finds it.

* `Felt.NearRoot` — what the method keeps while it corrects a candidate;
* `Felt.exists_sqrt?`, `Felt.smaller_eq_of_mul_self` — every square has an answer,
  and of it and its negation the smaller one is that of any other root;
* `Point.ofY?_of_onCurve` — a point of the curve is found again from its second
  coordinate and the choice of the first;
* `Point.eq_withTop_iff` — which bytes are a second coordinate and a topmost bit;
* `Point.decompress?_compress` — a point of the subgroup is read back;
* `Point.decompress?_compress_base` — so is every multiple of the generator.
-/
import ShieldedWallet.Curve.Compressed
import ShieldedWallet.Proofs.Curve.Multiples

namespace ShieldedWallet

/-! ### Square roots -/

namespace Felt

@[simp] theorem toResidue_neg (a : Felt) : (-a).toResidue = -a.toResidue := by
  rw [eq_neg_iff_add_eq_zero, ← toResidue_add, neg_add_cancel, toResidue_zero]

theorem toResidue_squareTimes (a : Felt) (n : Nat) :
    (squareTimes a n).toResidue = a.toResidue ^ 2 ^ n := by
  induction n generalizing a with
  | zero => simp [squareTimes]
  | succ n ih => rw [squareTimes, ih, toResidue_mul, ← pow_two, ← pow_mul, ← pow_succ']

/-- The candidate is a root of `a` but for the factor `t`, whose order divides `2 ^ k` unless `a` is
zero, while that of `z` divides `2 ^ (k + 1)` and no less. -/
structure NearRoot (a : Felt) (k : Nat) (root t z : Felt) : Prop where
  square : root.toResidue ^ 2 = a.toResidue * t.toResidue
  factor : a.toResidue ≠ 0 → t.toResidue ^ 2 ^ k = 1
  generator : z.toResidue ^ 2 ^ k = -1

namespace NearRoot

variable {a root t z : Felt} {k : Nat}

/-- The factor has the smaller order already. -/
theorem keep (h : NearRoot a (k + 1) root t z) (ht : squareTimes t k = 1) :
    NearRoot a k root t (z * z) where
  square := h.square
  factor _ := by rw [← toResidue_squareTimes, ht, toResidue_one]
  generator := by rw [toResidue_mul, ← pow_two, ← pow_mul, ← pow_succ', h.generator]

/-- The factor has the larger order, and that of `z * z` is the same. -/
theorem correct (h : NearRoot a (k + 1) root t z) (ht : squareTimes t k ≠ 1) :
    NearRoot a k (root * z) (t * (z * z)) (z * z) where
  square := by
    simp only [toResidue_mul]
    linear_combination z.toResidue ^ 2 * h.square
  factor ha := by
    -- a square root of one other than one is minus one
    have hsquare : t.toResidue ^ 2 ^ k * t.toResidue ^ 2 ^ k = 1 := by
      rw [← pow_two, ← pow_mul, ← pow_succ, h.factor ha]
    have hne : t.toResidue ^ 2 ^ k ≠ 1 := by
      rw [← toResidue_squareTimes, ← toResidue_one]
      exact fun heq => ht (toResidue_inj heq)
    have hminus := (mul_self_eq_one_iff.mp hsquare).resolve_left hne
    rw [toResidue_mul, toResidue_mul, mul_pow, hminus, ← pow_two, ← pow_mul, ← pow_succ',
      h.generator, neg_mul_neg, one_mul]
  generator := by rw [toResidue_mul, ← pow_two, ← pow_mul, ← pow_succ', h.generator]

/-- The candidate is corrected to a root. -/
theorem correctRoot_sq (h : NearRoot a k root t z) :
    (correctRoot k root t z).toResidue ^ 2 = a.toResidue := by
  induction k generalizing root t z with
  | zero =>
    rw [correctRoot, h.square]
    by_cases ha : a.toResidue = 0
    · rw [ha, zero_mul]
    · have ht := h.factor ha
      rw [pow_zero, pow_one] at ht
      rw [ht, mul_one]
  | succ k ih =>
    rw [correctRoot]
    split
    case isTrue ht => exact ih (h.keep ht)
    case isFalse ht => exact ih (h.correct ht)

end NearRoot

/-- Five is no square, by the criterion of Euler. -/
theorem twoGenerator_pow : twoGenerator.toResidue ^ 2 ^ (twoAdicity - 1) = -1 := by
  have hpow : squareTimes twoGenerator (twoAdicity - 1) = -1 := by decide +kernel
  rw [← toResidue_squareTimes, hpow, toResidue_neg, toResidue_one]

theorem nearRoot_of_isSquare {a : Felt} (h : IsSquare a.toResidue) :
    NearRoot a (twoAdicity - 1) (pow a ((oddPart + 1) / 2)) (pow a oddPart) twoGenerator where
  square := by
    have hodd : (oddPart + 1) / 2 * 2 = oddPart + 1 := by decide
    rw [toResidue_pow a (by decide), toResidue_pow a (by decide), ← pow_mul, hodd, pow_succ']
  factor ha := by
    have hhalf : oddPart * 2 ^ (twoAdicity - 1) = fieldOrder / 2 := by decide +kernel
    rw [toResidue_pow a (by decide), ← pow_mul, hhalf]
    exact (ZMod.euler_criterion fieldOrder ha).mp h
  generator := twoGenerator_pow

/-- Every square has an answer. -/
theorem exists_sqrt? {a : Felt} (h : IsSquare a.toResidue) : ∃ r, sqrt? a = some r := by
  have hroot := (nearRoot_of_isSquare h).correctRoot_sq
  rw [pow_two, ← toResidue_mul] at hroot
  exact ⟨_, by rw [sqrt?, checkRoot, if_pos (toResidue_inj hroot)]⟩

/-- The smaller one of an element and its negation. -/
def smaller (a : Felt) : Felt := if a ≤ -a then a else -a

theorem smaller_neg (a : Felt) : smaller (-a) = smaller a := by
  rw [smaller, smaller, neg_neg]
  by_cases hle : a ≤ -a
  · by_cases hge : -a ≤ a
    · rw [if_pos hge, if_pos hle, le_antisymm hge hle]
    · rw [if_neg hge, if_pos hle]
  · rw [if_pos (le_of_not_ge hle), if_neg hle]

/-- Two roots of one square differ at most in sign. -/
theorem smaller_eq_of_mul_self {a b : Felt} (h : a * a = b * b) : smaller a = smaller b := by
  have hresidue := congrArg toResidue h
  rw [toResidue_mul, toResidue_mul] at hresidue
  rcases mul_self_eq_mul_self_iff.mp hresidue with heq | heq
  · rw [toResidue_inj heq]
  · rw [← toResidue_neg] at heq
    rw [toResidue_inj heq, smaller_neg]

end Felt

/-! ### Points -/

namespace Point

/-- The square of the first coordinate is a quotient of terms in the second one. -/
theorem OnCurve.mul_self_x {p : Point} (h : p.OnCurve) :
    1 - d * (p.y * p.y) ≠ 0 ∧
      (1 - p.y * p.y) * (1 - d * (p.y * p.y)).inv = p.x * p.x := by
  have hcurve := h.element.equation
  have hden : (1 - d * (p.y * p.y)).toResidue ≠ 0 := by
    -- otherwise the coefficient would be a square
    intro hzero
    simp only [Felt.toResidue_sub, Felt.toResidue_mul, Felt.toResidue_one] at hzero
    have hy : p.y.toResidue = 0 := Edwards.eq_zero_of_mul_sq_eq_sq (d := d.toResidue) (b := 1)
      (by linear_combination -hzero)
    rw [hy] at hzero
    simp at hzero
  refine ⟨fun hzero => hden (by rw [hzero, Felt.toResidue_zero]), Felt.toResidue_inj ?_⟩
  rw [Felt.toResidue_mul, Felt.toResidue_inv, ← div_eq_mul_inv, div_eq_iff hden]
  simp only [Felt.toResidue_sub, Felt.toResidue_mul, Felt.toResidue_one]
  change p.x.toResidue ^ 2 + p.y.toResidue ^ 2 =
    1 + d.toResidue * p.x.toResidue ^ 2 * p.y.toResidue ^ 2 at hcurve
  linear_combination -hcurve

/-- From the second coordinate of a point of the curve the first one is found but for its sign. -/
theorem ofY?_y {p : Point} (h : p.OnCurve) (negative : Bool) :
    ofY? p.y negative = some ⟨if negative then -Felt.smaller p.x else Felt.smaller p.x, p.y⟩ := by
  obtain ⟨hden, hquotient⟩ := h.mul_self_x
  have hsquare : IsSquare (p.x * p.x).toResidue := ⟨p.x.toResidue, Felt.toResidue_mul p.x p.x⟩
  obtain ⟨r, hr⟩ := Felt.exists_sqrt? hsquare
  rw [← Felt.smaller_eq_of_mul_self (Felt.sqrt?_sound hr)]
  simp only [ofY?, if_neg hden, hquotient, hr]
  rfl

theorem choice_isNegative (p : Point) :
    (if p.isNegative then -Felt.smaller p.x else Felt.smaller p.x) = p.x := by
  rw [isNegative, Felt.smaller]
  by_cases hle : p.x ≤ -p.x <;> simp [hle]

/-- A point of the curve is found again from its second coordinate and the choice of the first. -/
theorem ofY?_of_onCurve {p : Point} (h : p.OnCurve) : ofY? p.y p.isNegative = some p := by
  rw [ofY?_y h, choice_isNegative]

/-! ### Bytes -/

/-- A second coordinate and a topmost bit in 32 bytes. -/
def withTop (y : Felt) (top : Bool) : FixedBytes 32 :=
  .ofNatLE 32 (y.val + if top then 2 ^ (255 : Nat) else 0)

theorem eq_withTop_iff {b : FixedBytes 32} {y : Felt} {top : Bool} :
    b = withTop y top ↔ b.toNatLE % 2 ^ 255 = y.val ∧ decide (2 ^ 255 ≤ b.toNatLE) = top := by
  have hy : y.val < 2 ^ 254 := Nat.lt_trans y.isLt fieldOrder_lt
  have hfits : (y.val + if top then 2 ^ 255 else 0) < 256 ^ 32 := by
    split <;> omega
  have hwritten : (withTop y top).toNatLE = y.val + if top then 2 ^ 255 else 0 := by
    rw [withTop, FixedBytes.toNatLE, FixedBytes.ofNatLE, Bytes.toNatLE_ofNatLE,
      Nat.mod_eq_of_lt hfits]
  have hnumber : b = withTop y top ↔ b.toNatLE = (withTop y top).toNatLE :=
    ⟨fun h => h ▸ rfl, fun h => FixedBytes.ext (Bytes.toNatLE_inj (by simp) h)⟩
  have hb : b.toNatLE < 256 ^ 32 := by
    have hlt := Bytes.toNatLE_lt b.toList
    rwa [b.length_eq] at hlt
  rw [hnumber, hwritten]
  cases top with
  | false => simp only [Bool.false_eq_true, if_false, decide_eq_false_iff_not]; omega
  | true => simp only [if_true, decide_eq_true_eq]; omega

theorem compress_eq_withTop (p : Point) : p.compress = withTop p.y p.isNegative := rfl

/-- A point of the subgroup is read back. -/
theorem decompress?_compress {p : Point} (hcurve : p.OnCurve) (hsubgroup : p.InSubgroup) :
    decompress? p.compress = some p := by
  obtain ⟨hlow, htop⟩ := eq_withTop_iff.mp p.compress_eq_withTop
  have hresidue : Felt.ofResidue? p.y.val = some p.y := Felt.ofResidue?_eq_some_iff.mpr rfl
  simp only [decompress?, hlow, htop, hresidue, ofY?_of_onCurve hcurve, Option.bind_eq_bind,
    Option.bind_some, if_pos hsubgroup]

theorem Denotes.onCurve {p : Point} {P : CurveGroup} (h : p.Denotes P) : p.OnCurve := by
  refine Felt.toResidue_inj ?_
  simp only [Felt.toResidue_add, Felt.toResidue_mul, Felt.toResidue_one, h.x_eq, h.y_eq]
  linear_combination P.equation

theorem base_inSubgroup (s : Scalar) : (base s).InSubgroup := by
  have hmultiple : groupOrder • s.val • generatorElement = 0 := by
    rw [← mul_nsmul', Nat.mul_comm, mul_nsmul', groupOrder_nsmul, nsmul_zero]
  have hdenotes := nsmul_denotes (base_denotes s) (show groupOrder < 2 ^ 256 by decide)
  rw [hmultiple] at hdenotes
  exact hdenotes.unique identity_denotes

/-- Multiples of the generator are read back. -/
theorem decompress?_compress_base (s : Scalar) :
    decompress? (base s).compress = some (base s) :=
  decompress?_compress (base_denotes s).onCurve (base_inSubgroup s)

end Point

end ShieldedWallet
