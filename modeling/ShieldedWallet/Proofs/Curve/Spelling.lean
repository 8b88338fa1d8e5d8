/-
What compressed points can be.

Reading 32 bytes gives a point of the subgroup, and every point of the subgroup
is read from the bytes that write it.  The topmost bit chooses between a first
coordinate and its negation, so it chooses nothing for the neutral point, which
is the one point of the subgroup with first coordinate zero: it is read from
other bytes as well.

* `Point.ofY?_eq_some_iff` — the points that are found for a second coordinate
  and a choice of the first;
* `Point.eq_identity_of_x_eq_zero` — the neutral point alone has no choice;
* `Point.decompress?_eq_some_iff` — the bytes that a point is read from.
-/
import ShieldedWallet.Proofs.Curve.Compression

namespace ShieldedWallet

namespace Felt

theorem eq_zero_of_neg_eq {a : Felt} (h : -a = a) : a = 0 := by
  have hresidue := congrArg toResidue h
  rw [toResidue_neg, ZMod.neg_eq_self_iff] at hresidue
  rcases hresidue with hzero | htwice
  · exact toResidue_inj (hzero.trans toResidue_zero.symm)
  · have hodd : fieldOrder % 2 = 1 := by decide
    omega

theorem smaller_le_neg (a : Felt) : smaller a ≤ -smaller a := by
  rw [smaller]
  split
  case isTrue hle => exact hle
  case isFalse hlt =>
    rw [neg_neg]
    exact le_of_not_ge hlt

theorem smaller_mul_self (a : Felt) : smaller a * smaller a = a * a := by
  rw [smaller]
  split
  · rfl
  · exact neg_mul_neg a a

end Felt

namespace Point

variable {p : Point} {y : Felt} {negative : Bool}

/-! ### First coordinates -/

theorem onCurve_of_mul_self_x (hden : 1 - d * (p.y * p.y) ≠ 0)
    (hx : p.x * p.x = (1 - p.y * p.y) * (1 - d * (p.y * p.y)).inv) : p.OnCurve := by
  have hden' : (1 - d * (p.y * p.y)).toResidue ≠ 0 := by
    rw [← Felt.toResidue_zero]
    exact fun h => hden (Felt.toResidue_inj h)
  have hquotient := congrArg Felt.toResidue hx
  rw [Felt.toResidue_mul _ (Felt.inv _), Felt.toResidue_inv, ← div_eq_mul_inv,
    eq_div_iff hden'] at hquotient
  refine Felt.toResidue_inj ?_
  simp only [Felt.toResidue_add, Felt.toResidue_sub, Felt.toResidue_mul, Felt.toResidue_one]
    at hquotient ⊢
  linear_combination hquotient

/-- What is chosen is on the chosen side, unless it is zero. -/
theorem isNegative_of_choice {x : Felt} (hx : x ≠ 0) (hle : x ≤ -x) (y : Felt) (negative : Bool) :
    isNegative ⟨if negative then -x else x, y⟩ = negative := by
  cases negative with
  | false => exact decide_eq_false (not_not_intro hle)
  | true =>
    refine decide_eq_true fun hge => hx ?_
    rw [if_pos rfl, neg_neg] at hge
    exact Felt.eq_zero_of_neg_eq (le_antisymm hge hle)

theorem ofY?_sound (h : ofY? y negative = some p) :
    p.OnCurve ∧ p.y = y ∧ (p.x ≠ 0 → p.isNegative = negative) := by
  simp only [ofY?] at h
  split at h
  case isTrue => cases h
  case isFalse hden =>
    obtain ⟨r, hr, hp⟩ := Option.bind_eq_some_iff.mp h
    change some (Point.mk (if negative then -Felt.smaller r else Felt.smaller r) y) = some p at hp
    cases hp
    refine ⟨onCurve_of_mul_self_x hden ?_, rfl, fun hx => ?_⟩
    · rw [← Felt.sqrt?_sound hr, ← Felt.smaller_mul_self r]
      cases negative with
      | false => rfl
      | true => exact neg_mul_neg _ _
    · refine isNegative_of_choice (fun hzero => hx ?_) (Felt.smaller_le_neg r) y negative
      simp only [hzero, neg_zero, ite_self]

/-- The points that are found for a second coordinate and a choice of the first. -/
theorem ofY?_eq_some_iff :
    ofY? y negative = some p ↔ p.OnCurve ∧ p.y = y ∧ (p.x ≠ 0 → p.isNegative = negative) := by
  refine ⟨ofY?_sound, ?_⟩
  rintro ⟨hcurve, rfl, hsign⟩
  by_cases hx : p.x = 0
  · have hzero : Felt.smaller (0 : Felt) = 0 := rfl
    rw [ofY?_y hcurve, hx, hzero, neg_zero, ite_self, ← hx]
  · rw [← hsign hx, ofY?_of_onCurve hcurve]

/-! ### The neutral point -/

theorem identity_onCurve : identity.OnCurve := by decide

theorem identity_inSubgroup : identity.InSubgroup := by decide +kernel

theorem not_inSubgroup_neg_one : ¬ (⟨0, -1⟩ : Point).InSubgroup := by decide +kernel

/-- The neutral point is the one point of the subgroup that is its own negation. -/
theorem eq_identity_of_x_eq_zero (hcurve : p.OnCurve) (hsubgroup : p.InSubgroup) (hx : p.x = 0) :
    p = identity := by
  obtain ⟨x, y⟩ := p
  obtain rfl : x = 0 := hx
  have hsquare : y * y = 1 * 1 := by
    have hequation : (0 : Felt) * 0 + y * y = 1 + d * (0 * 0) * (y * y) := hcurve
    simpa using hequation
  have hresidue := congrArg Felt.toResidue hsquare
  rw [Felt.toResidue_mul, Felt.toResidue_mul] at hresidue
  -- of the two second coordinates one belongs to a point of order two
  rcases mul_self_eq_mul_self_iff.mp hresidue with hone | hminus
  · rw [Felt.toResidue_inj hone, identity]
  · rw [← Felt.toResidue_neg] at hminus
    rw [Felt.toResidue_inj hminus] at hsubgroup
    exact absurd hsubgroup not_inSubgroup_neg_one

/-! ### Bytes -/

/-- A point is read from its second coordinate and any topmost bit that is not for another first
coordinate. -/
theorem decompress?_eq_some_iff_withTop {b : FixedBytes 32} :
    decompress? b = some p ↔
      p.OnCurve ∧ p.InSubgroup ∧
        ∃ top, b = withTop p.y top ∧ (p.x ≠ 0 → p.isNegative = top) := by
  simp only [eq_withTop_iff]
  constructor
  · intro h
    obtain ⟨y, hy, h⟩ := Option.bind_eq_some_iff.mp h
    obtain ⟨q, hq, h⟩ := Option.bind_eq_some_iff.mp h
    split at h
    case isFalse => cases h
    case isTrue hsubgroup =>
      cases h
      obtain ⟨hcurve, rfl, hsign⟩ := ofY?_eq_some_iff.mp hq
      exact ⟨hcurve, hsubgroup, _, ⟨Felt.ofResidue?_eq_some_iff.mp hy, rfl⟩, hsign⟩
  · rintro ⟨hcurve, hsubgroup, top, ⟨hlow, htop⟩, hsign⟩
    have hy : Felt.ofResidue? p.y.val = some p.y := Felt.ofResidue?_eq_some_iff.mpr rfl
    have hp := ofY?_eq_some_iff.mpr ⟨hcurve, rfl, hsign⟩
    simp only [decompress?, hlow, htop, hy, hp, Option.bind_eq_bind, Option.bind_some,
      if_pos hsubgroup]

/-- The bytes of the neutral point with the topmost bit set. -/
def identityTwin : FixedBytes 32 := withTop identity.y true

theorem identityTwin_ne : identityTwin ≠ identity.compress := by decide +kernel

/-- A point of the subgroup is read from its own bytes and no others, but for the neutral point,
which is read from those with the topmost bit set as well. -/
theorem decompress?_eq_some_iff {b : FixedBytes 32} :
    decompress? b = some p ↔
      p.OnCurve ∧ p.InSubgroup ∧ (b = p.compress ∨ p = identity ∧ b = identityTwin) := by
  rw [decompress?_eq_some_iff_withTop]
  refine and_congr_right fun hcurve => and_congr_right fun hsubgroup => ?_
  constructor
  · rintro ⟨top, hb, hsign⟩
    by_cases hx : p.x = 0
    · obtain rfl := eq_identity_of_x_eq_zero hcurve hsubgroup hx
      cases top with
      | false => exact .inl hb
      | true => exact .inr ⟨rfl, hb⟩
    · rw [← hsign hx] at hb
      exact .inl hb
  · rintro (rfl | ⟨rfl, rfl⟩)
    · exact ⟨p.isNegative, rfl, fun _ => rfl⟩
    · exact ⟨true, rfl, fun hx => absurd rfl hx⟩

end Point

end ShieldedWallet
