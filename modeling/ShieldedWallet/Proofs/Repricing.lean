/-
What a cheaper transaction spends.

Of two builders that differ only in what a transaction costs, the cheaper one
spends no other notes than the dearer one: it stops earlier along the same pool.
So a rate that is raised, or a swap that is added, adds inputs behind those there
were and takes none away.

* `Builder.Undercuts` — the builders differ in the rate and the swap only, and the
  first is not the dearer one;
* `Builder.Undercuts.pays` — a count that pays for the dearer one pays for the
  cheaper one;
* `Builder.inflow_prefix_of_undercuts` — where the dearer one builds a plan, so
  does the cheaper one, and its inputs are the first inputs of that plan.

Design notes: both builders choose the same token notes, since neither rate nor
swap is seen before ether is chosen.
-/
import ShieldedWallet.Proofs.Payment

namespace ShieldedWallet.Builder

/-- The builders differ at most in the rate, which is no higher in the first, and in the swap, which
the first may lack. -/
structure Undercuts (cheap dear : Builder) : Prop where
  changeTo : cheap.changeTo = dear.changeTo
  estimate : cheap.estimate = dear.estimate
  notes : cheap.notes = dear.notes
  requests : cheap.requests = dear.requests
  rate : cheap.rate ≤ dear.rate
  swap : cheap.swap = none ∨ cheap.swap = dear.swap

section Undercuts

variable {cheap dear : Builder} {salt' : Nat → Felt} {t : Preparation} {st' : Stages}

/-- Up to the choice of ether both builders do the same, whatever salts are drawn. -/
theorem Undercuts.prepares (h : cheap.Undercuts dear) (ht : dear.Prepares salt' t)
    (salt : Nat → Felt) : cheap.Prepares salt t := by
  refine ⟨?_, ?_, ht.surplus, ?_, ht.gathered⟩
  · rw [h.requests]
    exact ht.asked
  · rw [h.notes]
    exact ht.tokens
  · rw [externalFees?_eq_some_iff, externalTotal_tokenOutflow, h.requests,
      ← externalTotal_tokenOutflow dear salt', externalFees?_eq_some_iff.mp ht.externalFee]

theorem Undercuts.pricedSize_le (h : cheap.Undercuts dear) (hgrows : dear.estimate.Grows)
    (changes : Nat) {n n' : Nat} (hle : n ≤ n') :
    cheap.pricedSize changes n ≤ dear.pricedSize changes n' := by
  rw [pricedSize, pricedSize, h.estimate, h.requests]
  refine Nat.le_trans ?_ (hgrows.inputs hle _ _ _ _)
  rcases h.swap with hnone | hsame
  · rw [hnone]
    exact hgrows.swap _ _ _ _ _
  · rw [hsame]

theorem Undercuts.requiredEther_le (h : cheap.Undercuts dear) (hgrows : dear.estimate.Grows)
    (changes n : Nat) : cheap.requiredEther changes n ≤ dear.requiredEther changes n := by
  rw [requiredEther_eq, requiredEther_eq, h.requests]
  exact Nat.add_le_add_left (Nat.mul_le_mul h.rate (h.pricedSize_le hgrows changes (Nat.le_refl n))) _

/-- What pays for the dearer one pays for the cheaper one. -/
theorem Undercuts.pays (h : cheap.Undercuts dear) (hgrows : dear.estimate.Grows)
    {pool : List Utxo} {k : Nat} (hk : dear.Pays t pool k) : cheap.Pays t pool k :=
  hk.transfer (h.requiredEther_le hgrows _) rfl rfl hk.le_length (Nat.le_refl _) hk.fits

/-- The cheaper one builds on the same token notes, and takes no more notes of the same pool. -/
theorem Undercuts.exists_reaches (h : cheap.Undercuts dear) (hgrows : dear.estimate.Grows)
    (hst' : dear.Reaches salt' st') (salt : Nat → Felt) :
    ∃ st, cheap.Reaches salt st ∧ st.preparation = st'.preparation ∧
      st.ether.chosen <+: st'.ether.chosen := by
  have hpays := h.pays hgrows hst'.pays
  obtain ⟨st, hst, hsame⟩ := (h.prepares hst'.prepares salt).exists_reaches hpays
  have htokens : st.tokens = st'.tokens := congrArg Preparation.tokens hsame
  have hleast := hst.isLeast_pays
  rw [hsame, htokens] at hleast
  have hprefix := (coverEther_ok hst.ether).isPrefix
  rw [htokens] at hprefix
  exact ⟨st, hst, hsame, List.prefix_of_prefix_length_le hprefix
    (coverEther_ok hst'.ether).isPrefix (hleast.2 hpays)⟩

/-- On the wire a swap takes 32 bytes and each input 64. -/
theorem Undercuts.pricedSize_wireSize (h : cheap.Undercuts dear) (hwire : dear.estimate = wireSize)
    (changes n extra : Nat) :
    dear.pricedSize changes (n + extra) = cheap.pricedSize changes n +
      (32 * (if cheap.swap = dear.swap then 0 else 1) + 64 * extra) := by
  simp only [pricedSize, h.estimate, h.requests, hwire, wireSize, estimateSize]
  rcases h.swap with hnone | hsame
  · rw [hnone]
    cases dear.swap with
    | none =>
      rw [if_pos rfl]
      omega
    | some swap =>
      rw [if_neg (Option.some_ne_none swap).symm]
      simp only [Option.isSome_none, Option.isSome_some, Bool.false_eq_true, if_false, if_true]
      omega
  · rw [hsame, if_pos rfl]
    omega

end Undercuts

/-- Where the dearer of two builders builds a plan, the cheaper one builds one too.  The inputs of
the cheaper plan are the first inputs of the dearer one, and its fee is no higher.  At equal rates
and the size on the wire the fees differ by the rate times 32 for a swap added and 64 for each input
added. -/
theorem inflow_prefix_of_undercuts {cheap dear : Builder} {salt' : Nat → Felt} {plan' : Plan}
    (h : cheap.Undercuts dear) (hsize : dear.estimate.Usual)
    (hbuild : dear.build salt' = .ok plan') (salt : Nat → Felt) :
    ∃ plan extra, cheap.build salt = .ok plan ∧ plan'.inflow = plan.inflow ++ extra ∧
      plan.fee ≤ plan'.fee ∧
        (dear.estimate = wireSize → cheap.rate = dear.rate →
          plan'.fee.toNat = plan.fee.toNat + dear.rate.toNat *
            (32 * (if cheap.swap = dear.swap then 0 else 1) + 64 * extra.length)) := by
  obtain ⟨st', hst', rfl⟩ := build_eq_ok_iff.mp hbuild
  obtain ⟨st, hst, hsame, extra, hextra⟩ := h.exists_reaches hsize.grows hst' salt
  have htokens : st.tokens = st'.tokens := congrArg Preparation.tokens hsame
  have hsurplus : st.surplus = st'.surplus := congrArg Preparation.surplus hsame
  have hcount : st'.tokens.chosen.length + st'.ether.chosen.length =
      st.tokens.chosen.length + st.ether.chosen.length + extra.length := by
    rw [← hextra, List.length_append, htokens, Nat.add_assoc]
  have hfee := hst.fee_eq_price
  have hfee' := hst'.fee_eq_price
  rw [hcount, ← hsurplus] at hfee'
  refine ⟨_, extra, hst.build_eq, ?_, ?_, fun hwire hrate => ?_⟩
  · rw [planOf, planOf, ← hextra, htokens, List.append_assoc]
  · rw [Amount.le_def, hfee, hfee']
    exact Nat.mul_le_mul h.rate (h.pricedSize_le hsize.grows _ (Nat.le_add_right _ _))
  · rw [hfee', h.pricedSize_wireSize hwire, Nat.mul_add, hfee, hrate]

/-- A builder at ten for each byte, whose larger note pays for its request alone, but not if a swap
is added. -/
def soloBuilder : Builder where
  changeTo := .null
  rate := 10
  estimate := wireSize
  swap := none
  notes := [looseNote (.ether 900), looseNote (.ether 4400)]
  requests := [plainOutput .null 1 (.ether 100)]

/-- The same builder with a swap. -/
def swapBuilder : Builder := { soloBuilder with swap := some 7 }

/-- The choices made for `soloBuilder` and `swapBuilder`, but for the ether. -/
def soloStages (ether : EtherChoice) : Stages where
  asked := ⟨100, [], []⟩
  tokens := ⟨[], soloBuilder.notes⟩
  surplus := []
  externalFee := 0
  gathered := 0
  ether := ether

theorem etherPool_soloBuilder : etherPool soloBuilder.notes =
    [looseNote (.ether 4400), looseNote (.ether 900)] :=
  congrArg List.reverse (List.mergeSort_of_pairwise (by decide))

theorem soloBuilder_reaches :
    soloBuilder.Reaches (fun _ => 0) (soloStages ⟨[looseNote (.ether 4400)], 4210, 90⟩) := by
  refine ⟨rfl, rfl, rfl, rfl, rfl, ?_⟩
  rw [soloStages, etherPool_soloBuilder]
  rfl

theorem swapBuilder_reaches :
    swapBuilder.Reaches (fun _ => 0)
      (soloStages ⟨[looseNote (.ether 4400), looseNote (.ether 900)], 5170, 30⟩) := by
  refine ⟨rfl, rfl, rfl, rfl, rfl, ?_⟩
  rw [soloStages, etherPool_soloBuilder]
  rfl

/-- With the swap the smaller note is spent behind the larger one, and the bytes of both the swap
and the note are paid. -/
theorem inflow_prefix_of_undercuts_swapBuilder :
    ∃ plan plan', soloBuilder.build (fun _ => 0) = .ok plan ∧
      swapBuilder.build (fun _ => 0) = .ok plan' ∧
        plan'.inflow = plan.inflow ++ [looseNote (.ether 900)] ∧ plan.fee ≤ plan'.fee ∧
          plan'.fee.toNat = plan.fee.toNat + 10 * (32 * 1 + 64 * 1) := by
  have hundercuts : soloBuilder.Undercuts swapBuilder :=
    ⟨rfl, rfl, rfl, rfl, Nat.le_refl _, .inl rfl⟩
  have hsolo := soloBuilder_reaches.build_eq
  have hswap := swapBuilder_reaches.build_eq
  obtain ⟨plan, extra, hbuild, hinflow, hle, hfee⟩ :=
    inflow_prefix_of_undercuts hundercuts .wire hswap fun _ => 0
  obtain rfl := Except.ok.inj (hsolo.symm.trans hbuild)
  have hsplit : [looseNote (.ether 4400)] ++ [looseNote (.ether 900)] =
      [looseNote (.ether 4400)] ++ extra := hinflow
  obtain rfl := List.append_cancel_left hsplit
  exact ⟨_, _, hsolo, hswap, hinflow, hle, hfee rfl rfl⟩

end ShieldedWallet.Builder
