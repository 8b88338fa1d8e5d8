/-
The order of the circuit's field is prime.

A number `p` is prime if some number has the order `p - 1` modulo `p` (the test
of Lucas).  To check that order, the prime factors of `p - 1` are needed, and
the large ones are certified in the same way.

* `Primality.LucasEntry` — a number, a base and the factors of the number's
  predecessor;
* `Primality.certifies_sound` — what a checked list of entries certifies is
  prime;
* `fieldOrder_prime` — the certificate of the field's order.

Design notes: a certificate is checked by evaluation in the kernel.  Powers go
by repeated squaring, so a check takes a few hundred products for each factor.
-/
import Mathlib.Data.List.Prime
import Mathlib.NumberTheory.LucasPrimality
import Mathlib.Tactic.NormNum.Prime
import ShieldedWallet.Field

namespace ShieldedWallet

/-- The low binary digits of a number are those of its half, twice, and the last one. -/
theorem mod_two_pow_succ (n w : Nat) :
    n % 2 ^ (w + 1) = n / 2 % 2 ^ w + n / 2 % 2 ^ w + n % 2 := by
  rw [Nat.pow_succ, Nat.mul_comm, Nat.mod_mul]
  omega

namespace Primality

/-! ### Powers modulo a number -/

/-- The power of `a` modulo `m` whose exponent is written by the `w` low binary digits of `n`. -/
def powMod (m a : Nat) : (w n : Nat) → Nat
  | 0, _ => 1 % m
  | w + 1, n =>
    let half := powMod m a w (n / 2)
    let square := half * half % m
    if n % 2 = 1 then square * a % m else square

theorem cast_powMod (m a w n : Nat) :
    (powMod m a w n : ZMod m) = (a : ZMod m) ^ (n % 2 ^ w) := by
  induction w generalizing n with
  | zero => simp [powMod, Nat.mod_one]
  | succ w ih =>
    rw [mod_two_pow_succ, pow_add, pow_add, ← ih]
    rcases Nat.mod_two_eq_zero_or_one n with hbit | hbit
    · simp [powMod, hbit]
    · simp [powMod, hbit]

/-! ### Certificates -/

/-- A number with a base of full order modulo it, and the factors of the number's predecessor, each
as often as it occurs. -/
structure LucasEntry where
  number : Nat
  base : Nat
  factors : List Nat

/-- The power of the base to an exponent. -/
def LucasEntry.power (e : LucasEntry) (n : Nat) : Nat := powMod e.number e.base 256 n

/-- The base has full order, provided that the factors are prime. -/
def LucasEntry.FullOrder (e : LucasEntry) : Prop :=
  1 < e.number ∧ e.number ≤ 2 ^ 256 ∧ e.factors.prod = e.number - 1 ∧
    e.power (e.number - 1) = 1 ∧ ∀ q ∈ e.factors, e.power ((e.number - 1) / q) ≠ 1

instance (e : LucasEntry) : Decidable e.FullOrder := inferInstanceAs (Decidable (_ ∧ _))

/-- Every entry has a base of full order, and its factors are known or certified by an entry before
it. -/
def Certifies : (known : List Nat) → List LucasEntry → Prop
  | _, [] => True
  | known, e :: es => e.FullOrder ∧ (∀ q ∈ e.factors, q ∈ known) ∧ Certifies (e.number :: known) es

instance Certifies.decidable : (known : List Nat) → (es : List LucasEntry) →
    Decidable (Certifies known es)
  | _, [] => inferInstanceAs (Decidable True)
  | known, e :: es =>
    have := Certifies.decidable (e.number :: known) es
    inferInstanceAs (Decidable (_ ∧ _ ∧ _))

theorem LucasEntry.pow_eq_one_iff {e : LucasEntry} (he : 1 < e.number) {n : Nat}
    (hn : n < 2 ^ 256) : (e.base : ZMod e.number) ^ n = 1 ↔ e.power n = 1 := by
  have hlt : e.power n < e.number := by
    unfold power powMod
    split <;> exact Nat.mod_lt _ (Nat.zero_lt_of_lt he)
  have hpower : (e.power n : ZMod e.number) = (e.base : ZMod e.number) ^ n := by
    rw [power, cast_powMod, Nat.mod_eq_of_lt hn]
  rw [← hpower]
  constructor
  · intro h
    have hmod : e.power n % e.number = 1 % e.number :=
      (ZMod.natCast_eq_natCast_iff' _ _ _).mp (by rw [h, Nat.cast_one])
    rwa [Nat.mod_eq_of_lt hlt, Nat.mod_eq_of_lt he] at hmod
  · intro h
    rw [h, Nat.cast_one]

theorem LucasEntry.FullOrder.prime {e : LucasEntry} (h : e.FullOrder)
    (hfactors : ∀ q ∈ e.factors, q.Prime) : e.number.Prime := by
  obtain ⟨hone, hbound, hprod, hfull, hpart⟩ := h
  refine lucas_primality e.number e.base ?_ fun q hq hdvd => ?_
  · exact (pow_eq_one_iff hone (by omega)).mpr hfull
  · -- a prime that divides the product of the factors is one of them
    rw [← hprod] at hdvd
    have hmem : q ∈ e.factors :=
      mem_list_primes_of_dvd_prod hq.prime (fun r hr => (hfactors r hr).prime) hdvd
    have hlt : (e.number - 1) / q < 2 ^ 256 := by
      have := Nat.div_le_self (e.number - 1) q
      omega
    rw [ne_eq, pow_eq_one_iff hone hlt]
    exact hpart q hmem

theorem certifies_sound {known : List Nat} {es : List LucasEntry}
    (hknown : ∀ q ∈ known, q.Prime) (h : Certifies known es) : ∀ e ∈ es, e.number.Prime := by
  induction es generalizing known with
  | nil => exact List.forall_mem_nil _
  | cons e es ih =>
    obtain ⟨hfull, hfactors, hrest⟩ := h
    have he : e.number.Prime := hfull.prime fun q hq => hknown q (hfactors q hq)
    exact List.forall_mem_cons.mpr ⟨he, ih (List.forall_mem_cons.mpr ⟨he, hknown⟩) hrest⟩

/-! ### The order of the field -/

/-- Small primes. -/
def smallPrimes : List Nat :=
  [2, 3, 5, 7, 11, 13, 29, 83, 107, 229, 379, 661, 823, 853, 983, 1637, 3691, 4999, 11003, 93001,
   237073, 1593227]

theorem smallPrimes_prime : ∀ q ∈ smallPrimes, q.Prime := by
  norm_num [smallPrimes]

/-- The order of the field, after the large factors that lead to it. -/
def fieldCertificate : List LucasEntry :=
  [⟨405928799, 22, [2, 11, 3691, 4999]⟩,
   ⟨12048837557, 2, [2, 2, 7, 7, 661, 93001]⟩,
   ⟨5156902474397, 2, [2, 2, 107, 12048837557]⟩,
   ⟨1670836401704629, 2, [2, 2, 3, 3, 3, 3, 5156902474397]⟩,
   ⟨639533339, 2, [2, 229, 853, 1637]⟩,
   ⟨65865678001877903, 5, [2, 83, 379, 1637, 639533339]⟩,
   ⟨13818364434197438864469338081, 3,
    [2, 2, 2, 2, 2, 5, 823, 1593227, 65865678001877903]⟩,
   ⟨fieldOrder, 5, List.replicate 28 2 ++
    [3, 3, 13, 29, 983, 11003, 237073, 405928799, 1670836401704629,
     13818364434197438864469338081]⟩]

theorem certifies_fieldCertificate : Certifies smallPrimes fieldCertificate := by
  decide +kernel

end Primality

/-- The order of the circuit's field is prime. -/
theorem fieldOrder_prime : fieldOrder.Prime :=
  Primality.certifies_sound Primality.smallPrimes_prime Primality.certifies_fieldCertificate
    ⟨fieldOrder, 5, _⟩ (List.mem_of_mem_getLast? rfl)

end ShieldedWallet
