/-
The order of the generator.

The order of the subgroup is prime, and the generator is not the neutral point,
so its order is that of the subgroup and no multiple of it occurs twice.

* `groupOrder_prime` — the certificate of the subgroup's order;
* `Point.addOrderOf_generator` — the order of the generator;
* `Point.base_inj` — scalars are told apart by their multiples of the
  generator.
-/
import ShieldedWallet.Proofs.Curve.Multiples

namespace ShieldedWallet

namespace Primality

/-- Small primes below the order of the subgroup. -/
def smallGroupPrimes : List Nat :=
  [2, 3, 5, 7, 11, 13, 17, 19, 23, 37, 349, 521, 967, 1061, 4139, 6323, 27743, 33409, 43189,
   295049, 336157, 513749]

theorem smallGroupPrimes_prime : ∀ q ∈ smallGroupPrimes, q.Prime := by
  norm_num [smallGroupPrimes]

/-- The order of the subgroup, after the large factors that lead to it. -/
def groupCertificate : List LucasEntry :=
  [⟨25485742523, 2, [2, 43189, 295049]⟩,
   ⟨202795150404015601, 7, [2, 2, 2, 2, 3, 5, 5, 19, 349, 25485742523]⟩,
   ⟨431548080059745198929, 3, [2, 2, 2, 2, 7, 19, 202795150404015601]⟩,
   ⟨32151195060611136810608359, 3, [2, 3, 3, 4139, 431548080059745198929]⟩,
   ⟨10206821, 2, [2, 2, 5, 13, 37, 1061]⟩,
   ⟨81654569, 3, [2, 2, 2, 10206821]⟩,
   ⟨27892051421815855583579, 2, [2, 23, 521, 27743, 513749, 81654569]⟩,
   ⟨1863691091902891838383581623, 5, [2, 33409, 27892051421815855583579]⟩,
   ⟨178259130663561045147472537592047227885001, 14,
    [2, 2, 2, 3, 3, 5, 5, 5, 5, 6323, 336157, 1863691091902891838383581623]⟩,
   ⟨groupOrder, 31,
    [2, 2, 2, 2, 3, 5, 11, 11, 17, 967, 32151195060611136810608359,
     178259130663561045147472537592047227885001]⟩]

theorem certifies_groupCertificate : Certifies smallGroupPrimes groupCertificate := by
  decide +kernel

end Primality

/-- The order of the subgroup is prime. -/
theorem groupOrder_prime : groupOrder.Prime :=
  Primality.certifies_sound Primality.smallGroupPrimes_prime Primality.certifies_groupCertificate
    ⟨groupOrder, 31, _⟩ (List.mem_of_mem_getLast? rfl)

namespace Point

theorem generatorElement_ne_zero : generatorElement ≠ 0 := by
  intro h
  have hdenotes : generator.Denotes 0 := h ▸ generator_onCurve.denotes
  exact absurd (hdenotes.unique identity_denotes) (by decide)

theorem addOrderOf_generator : addOrderOf generatorElement = groupOrder :=
  have : Fact groupOrder.Prime := ⟨groupOrder_prime⟩
  addOrderOf_eq_prime groupOrder_nsmul generatorElement_ne_zero

theorem Denotes.eq {p : Point} {P Q : CurveGroup} (hP : p.Denotes P) (hQ : p.Denotes Q) : P = Q :=
  Edwards.ext (hP.x_eq.symm.trans hQ.x_eq) (hP.y_eq.symm.trans hQ.y_eq)

/-- Scalars are told apart by their multiples of the generator. -/
theorem base_inj {s t : Scalar} : base s = base t ↔ s = t := by
  constructor
  · intro h
    have hmultiple : s.val • generatorElement = t.val • generatorElement :=
      (h ▸ base_denotes s : (base t).Denotes _).eq (base_denotes t)
    rw [nsmul_inj_mod, addOrderOf_generator, Nat.mod_eq_of_lt s.isLt, Nat.mod_eq_of_lt t.isLt]
      at hmultiple
    exact Fin.ext hmultiple
  · rintro rfl
    rfl

end Point

end ShieldedWallet
