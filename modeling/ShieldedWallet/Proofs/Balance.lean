/-
Balance in exact arithmetic.

A plan is balanced if the ether of its inputs is that of its outputs with the
fee and all fees on the base ledger, and if for each token both sides hold the
same amount and the same ids.  These equations are between natural numbers and
between multisets, so nothing wraps around and no order matters.

* `Plan.Balanced` — the equations;
* `Plan.checkBalance_eq_ok_iff` — the check of a plan accepts exactly the
  balanced plans whose input totals fit 256 bits;
* `Plan.checkBalance_exact` — the same in full, with the fees that an accepted
  plan shows.

Design notes: the check walks over the tokens that some note holds.  Any other
token has amount zero and no ids on both sides, which is why the equations hold
for all tokens.
-/
import ShieldedWallet.Plan.Basic
import ShieldedWallet.Proofs.Totals

namespace ShieldedWallet

open Holdings (Fits)

/-! ### Sums of amounts -/

theorem Amount.foldlM_add?_eq_some_iff {xs : List Amount} {a s : Amount} :
    xs.foldlM Amount.add? a = some s ↔ s.toNat = a.toNat + (xs.map Amount.toNat).sum := by
  induction xs generalizing a with
  | nil =>
    rw [List.foldlM_nil, List.map_nil, List.sum_nil, Nat.add_zero]
    constructor
    · rintro ⟨⟩
      rfl
    · intro h
      exact congrArg some (Amount.ext h.symm)
  | cons x xs ih =>
    rw [List.foldlM_cons, Option.bind_eq_bind, Option.bind_eq_some_iff, List.map_cons,
      List.sum_cons]
    constructor
    · rintro ⟨c, hc, hrun⟩
      rw [ih.mp hrun, Amount.add?_eq_some_iff.mp hc]
      omega
    · intro h
      have hlt := s.isLt
      obtain ⟨c, hc⟩ := Amount.exists_add?_iff.mpr (show a.toNat + x.toNat < amountBound by omega)
      refine ⟨c, hc, ih.mpr ?_⟩
      rw [h, Amount.add?_eq_some_iff.mp hc]
      omega

/-- A sum of amounts exists exactly if the exact sum fits, and then is exact. -/
theorem Amount.sum?_eq_some_iff {xs : List Amount} {s : Amount} :
    Amount.sum? xs = some s ↔ s.toNat = (xs.map Amount.toNat).sum := by
  rw [Amount.sum?, Amount.foldlM_add?_eq_some_iff, Amount.toNat_zero, Nat.zero_add]

theorem spentEther?_eq_some_iff {outflow fee externalFee spent : Amount} :
    Plan.spentEther? outflow fee externalFee = some spent ↔
      spent.toNat = outflow.toNat + fee.toNat + externalFee.toNat := by
  rw [Plan.spentEther?, Option.bind_eq_some_iff]
  constructor
  · rintro ⟨v, hv, hspent⟩
    rw [Amount.add?_eq_some_iff.mp hspent, Amount.add?_eq_some_iff.mp hv]
  · intro h
    have hlt := spent.isLt
    obtain ⟨v, hv⟩ :=
      Amount.exists_add?_iff.mpr (show outflow.toNat + fee.toNat < amountBound by omega)
    exact ⟨v, hv, Amount.add?_eq_some_iff.mpr (by rw [h, Amount.add?_eq_some_iff.mp hv])⟩

/-- The fees of a list of outputs on the base ledger, in exact arithmetic. -/
def externalTotal (outflow : List Outflow) : Nat :=
  (outflow.map fun o => o.externalFee.toNat).sum

@[simp] theorem externalTotal_append {xs ys : List Outflow} :
    externalTotal (xs ++ ys) = externalTotal xs + externalTotal ys := by
  rw [externalTotal, List.map_append, List.sum_append, externalTotal, externalTotal]

theorem externalFees?_eq_some_iff {outflow : List Outflow} {fee : Amount} :
    externalFees? outflow = some fee ↔ fee.toNat = externalTotal outflow := by
  rw [externalFees?, Amount.sum?_eq_some_iff, List.map_map]
  rfl

/-! ### Ids and tokens in order -/

/-- Two lists of ids are the same in ascending order exactly if they are the same up to order. -/
theorem ascending_eq_iff {xs ys : List Amount} : ascending xs = ascending ys ↔ xs.Perm ys := by
  have hperm : ∀ zs : List Amount, (ascending zs).Perm zs := fun zs => List.mergeSort_perm zs _
  have hsorted : ∀ zs : List Amount, (ascending zs).Pairwise fun a b => a ≤ b := fun zs =>
    Amount.pairwise_mergeSort (fun a => a) zs
  constructor
  · intro h
    exact (hperm xs).symm.trans (h ▸ hperm ys)
  · intro h
    -- two sorted permutations of each other are equal, as the order is antisymmetric
    refine List.Perm.eq_of_pairwise (fun a b _ _ hab hba => ?_) (hsorted xs) (hsorted ys)
      ((hperm xs).trans (h.trans (hperm ys).symm))
    exact Amount.ext (Nat.le_antisymm hab hba)

theorem mem_eraseReps {α : Type} [BEq α] [LawfulBEq α] {x : α} {xs : List α} :
    x ∈ xs.eraseReps ↔ x ∈ xs := by
  -- the loop keeps the last element seen apart from those already listed
  have hloop : ∀ (rest acc : List α) (a : α),
      x ∈ List.eraseRepsBy.loop (· == ·) a rest acc ↔ x = a ∨ x ∈ rest ∨ x ∈ acc := by
    intro rest
    induction rest with
    | nil =>
      intro acc a
      simp [List.eraseRepsBy.loop, or_comm]
    | cons b rest ih =>
      intro acc a
      rw [List.eraseRepsBy.loop]
      cases hab : a == b with
      | true =>
        rw [ih, List.mem_cons, eq_of_beq hab]
        grind
      | false =>
        rw [ih, List.mem_cons, List.mem_cons]
        grind
  cases xs with
  | nil => rfl
  | cons a rest =>
    rw [List.eraseReps, List.eraseRepsBy, hloop, List.mem_cons]
    simp

theorem mem_heldTokens {inflow outflow : Holdings} {token : LedgerAddress} :
    token ∈ Plan.heldTokens inflow outflow ↔
      (token ∈ inflow.fungible.keys ∨ token ∈ inflow.single.keys) ∨
        token ∈ outflow.fungible.keys ∨ token ∈ outflow.single.keys := by
  simp only [Plan.heldTokens, Holdings.tokens, mem_eraseReps, List.mem_mergeSort, List.mem_append]

/-! ### The check -/

namespace Plan

/-- The assets of the inputs. -/
def inflowAssets (p : Plan) : List Asset := p.inflow.map Utxo.asset

/-- The assets of the outputs. -/
def outflowAssets (p : Plan) : List Asset := p.outflow.map Outflow.asset

/-- Nothing is made and nothing is lost, in exact arithmetic: the ether of the inputs is that of the
outputs and all fees, and both sides hold the same amount of each token and, up to order, the same
ids of each contract. -/
structure Balanced (p : Plan) : Prop where
  ether : etherTotal p.inflowAssets =
    etherTotal p.outflowAssets + p.fee.toNat + externalTotal p.outflow
  fungible : ∀ token, fungibleTotal token p.inflowAssets = fungibleTotal token p.outflowAssets
  single : ∀ token, (singleIds token p.inflowAssets).Perm (singleIds token p.outflowAssets)

theorem checkToken_eq_ok_iff {inflow outflow : Holdings} {token : LedgerAddress} :
    checkToken inflow outflow token = .ok () ↔
      inflow.amountOf token = outflow.amountOf token ∧
        (inflow.idsOf token).Perm (outflow.idsOf token) := by
  rw [← ascending_eq_iff, checkToken]
  split
  case isTrue h => simp [h]
  case isFalse h =>
    split
    case isTrue h' => simp [h']
    case isFalse h' => simp [Decidable.not_not.mp h, Decidable.not_not.mp h']

theorem checkTokens_eq_ok_iff {inflow outflow : Holdings} {tokens : List LedgerAddress} :
    checkTokens inflow outflow tokens = .ok () ↔
      ∀ token ∈ tokens, inflow.amountOf token = outflow.amountOf token ∧
        (inflow.idsOf token).Perm (outflow.idsOf token) := by
  induction tokens with
  | nil => simp [checkTokens]
  | cons token rest ih =>
    rw [checkTokens, Except.bind_eq_ok_iff, List.forall_mem_cons, ← checkToken_eq_ok_iff, ← ih]
    constructor
    · rintro ⟨⟨⟩, hhead, htail⟩
      exact ⟨hhead, htail⟩
    · rintro ⟨hhead, htail⟩
      exact ⟨(), hhead, htail⟩

theorem inflowHoldings_eq (p : Plan) : p.inflowHoldings = Holdings.ofAssets p.inflowAssets :=
  Holdings.ofNotes_map Utxo.note p.inflow

theorem outflowHoldings_eq (p : Plan) : p.outflowHoldings = Holdings.ofAssets p.outflowAssets :=
  Holdings.ofNotes_map Outflow.note p.outflow

/-- Holdings that agree on the tokens they list agree on all tokens. -/
theorem checkTokens_heldTokens_iff {inflow outflow : Holdings} {xs ys : List Asset}
    (hin : inflow.Tallies xs) (hout : outflow.Tallies ys) :
    checkTokens inflow outflow (heldTokens inflow outflow) = .ok () ↔
      (∀ token, fungibleTotal token xs = fungibleTotal token ys) ∧
        ∀ token, (singleIds token xs).Perm (singleIds token ys) := by
  rw [checkTokens_eq_ok_iff]
  constructor
  · intro h
    refine ⟨fun token => ?_, fun token => ?_⟩
    -- a token that neither side lists has total zero and no ids on both
    all_goals
      by_cases hheld : token ∈ heldTokens inflow outflow
    · rw [← hin.amountOf, ← hout.amountOf, (h token hheld).1]
    · rw [mem_heldTokens, hin.mem_fungible, hout.mem_fungible] at hheld
      rw [fungibleTotal_eq_zero (by grind), fungibleTotal_eq_zero (by grind)]
    · rw [← hin.idsOf, ← hout.idsOf]
      exact (h token hheld).2
    · rw [mem_heldTokens, hin.mem_single, hout.mem_single] at hheld
      rw [singleIds_eq_nil (by grind), singleIds_eq_nil (by grind)]
  · rintro ⟨hfungible, hsingle⟩ token _
    refine ⟨Amount.ext ?_, ?_⟩
    · rw [hin.amountOf, hout.amountOf]
      exact hfungible token
    · rw [hin.idsOf, hout.idsOf]
      exact hsingle token

/-- The check accepts exactly the balanced plans whose input totals fit 256 bits. -/
theorem checkBalance_eq_ok_iff {p : Plan} :
    p.checkBalance = .ok () ↔ Fits p.inflowAssets ∧ p.Balanced := by
  rw [checkBalance, inflowHoldings_eq, outflowHoldings_eq, Except.bind_eq_ok_iff]
  constructor
  · rintro ⟨inflow, hin, h⟩
    obtain ⟨outflow, hout, h⟩ := Except.bind_eq_ok_iff.mp h
    have htin := Holdings.tallies_of_ofAssets (Except.mapError_eq_ok_iff.mp hin)
    have htout := Holdings.tallies_of_ofAssets (Except.mapError_eq_ok_iff.mp hout)
    cases hfees : externalFees? p.outflow with
    | none => simp [hfees] at h
    | some fees =>
      cases hspent : spentEther? outflow.eth p.fee fees with
      | none => simp [hfees, hspent] at h
      | some spent =>
        by_cases hether : spent = inflow.eth
        · simp only [hfees, hspent, hether, ne_eq, not_true_eq_false, if_false] at h
          obtain ⟨hfungible, hsingle⟩ := (checkTokens_heldTokens_iff htin htout).mp h
          refine ⟨htin.fits, ?_, hfungible, hsingle⟩
          rw [← htin.eth, ← hether, spentEther?_eq_some_iff.mp hspent, htout.eth,
            externalFees?_eq_some_iff.mp hfees]
        · simp [hfees, hspent, hether] at h
  · rintro ⟨hfits, hbal⟩
    -- outputs and fees are no more than the inputs, so every total on the way fits
    obtain ⟨inflow, hin⟩ := Holdings.exists_ofAssets_iff.mpr hfits
    have htin := Holdings.tallies_of_ofAssets hin
    have hfits' : Fits p.outflowAssets :=
      ⟨by have := hfits.1; have := hbal.ether; omega,
        fun token => hbal.fungible token ▸ hfits.2 token⟩
    obtain ⟨outflow, hout⟩ := Holdings.exists_ofAssets_iff.mpr hfits'
    have htout := Holdings.tallies_of_ofAssets hout
    have hlt := hfits.1
    rw [hbal.ether] at hlt
    have hfees := externalFees?_eq_some_iff.mpr
      (show (Amount.mk (externalTotal p.outflow) (by omega)).toNat = _ from rfl)
    have hspent : spentEther? outflow.eth p.fee ⟨externalTotal p.outflow, by omega⟩ =
        some inflow.eth :=
      spentEther?_eq_some_iff.mpr (by rw [htin.eth, htout.eth, hbal.ether])
    refine ⟨inflow, Except.mapError_eq_ok_iff.mpr hin, Except.bind_eq_ok_iff.mpr
      ⟨outflow, Except.mapError_eq_ok_iff.mpr hout, ?_⟩⟩
    simp only [hfees, hspent, ne_eq, not_true_eq_false, if_false]
    exact (checkTokens_heldTokens_iff htin htout).mpr ⟨hbal.fungible, hbal.single⟩

/-- Fees on the base ledger that fit 256 bits are shown exactly. -/
theorem toNat_externalFee {p : Plan} (h : externalTotal p.outflow < amountBound) :
    p.externalFee.toNat = externalTotal p.outflow := by
  have hfees : externalFees? p.outflow = some ⟨externalTotal p.outflow, h⟩ :=
    externalFees?_eq_some_iff.mpr rfl
  rw [externalFee, hfees, Option.getD_some]

/-- The check decides balance between exact totals, for any plan whatsoever.  It accepts exactly if
the ether of the inputs fits 256 bits and is that of the outputs with the fee and all fees on the
base ledger, the amount of each token in the inputs fits and is that in the outputs, and the ids of
each contract's single tokens are the same as often on both sides.  A plan accepted shows its exact
fees on the base ledger. -/
theorem checkBalance_exact (p : Plan) :
    (p.checkBalance = .ok () ↔
      etherTotal p.inflowAssets < amountBound ∧
        etherTotal p.inflowAssets =
          etherTotal p.outflowAssets + p.fee.toNat + externalTotal p.outflow ∧
        (∀ token, fungibleTotal token p.inflowAssets < amountBound ∧
          fungibleTotal token p.inflowAssets = fungibleTotal token p.outflowAssets) ∧
        ∀ token, (singleIds token p.inflowAssets).Perm (singleIds token p.outflowAssets)) ∧
      (p.checkBalance = .ok () → p.externalFee.toNat = externalTotal p.outflow) := by
  constructor
  · rw [checkBalance_eq_ok_iff]
    constructor
    · rintro ⟨⟨hfits, hfungible⟩, hbalanced⟩
      exact ⟨hfits, hbalanced.ether, fun token => ⟨hfungible token, hbalanced.fungible token⟩,
        hbalanced.single⟩
    · rintro ⟨hfits, hether, hfungible, hsingle⟩
      exact ⟨⟨hfits, fun token => (hfungible token).1⟩, hether, fun token => (hfungible token).2,
        hsingle⟩
  · intro h
    obtain ⟨⟨hfits, -⟩, hbalanced⟩ := checkBalance_eq_ok_iff.mp h
    have hether := hbalanced.ether
    exact toNat_externalFee (by omega)

/-- A plan that joins two notes of a token, passes on two single tokens of one id, and withdraws
ether at a fee. -/
def exchangePlan : Plan where
  inflow := [⟨0, .zero, 3, 0⟩, ⟨0, .zero, 5, 0⟩, ⟨0, .zero, 0, 9⟩, ⟨0, .zero, 0, 9⟩, .ether 100].map
    fun asset => ⟨⟨.null, 0, asset⟩, .unspent⟩
  outflow := .withdrawal ⟨⟨.null, 0, .ether 60⟩, .zero, 5, .nonIncluded⟩ ::
    [⟨0, .zero, 0, 9⟩, ⟨0, .zero, 8, 0⟩, ⟨0, .zero, 0, 9⟩].map
      fun asset => .plain ⟨⟨.null, 1, asset⟩, .nonIncluded⟩
  swap := none
  fee := 35

/-- `exchangePlan` is accepted, and not any more where one of the single tokens is kept back. -/
theorem checkBalance_exact_exchangePlan :
    exchangePlan.checkBalance = .ok () ∧ exchangePlan.externalFee.toNat = 5 ∧
      { exchangePlan with outflow := exchangePlan.outflow.dropLast }.checkBalance ≠ .ok () := by
  have hin : ∀ a ∈ exchangePlan.inflowAssets, a.token = .zero := by decide
  have hout : ∀ a ∈ exchangePlan.outflowAssets, a.token = .zero := by decide
  have hother (token : LedgerAddress) (htoken : token ≠ .zero) (xs : List Asset)
      (hxs : ∀ a ∈ xs, a.token = .zero) : fungibleTotal token xs = 0 ∧ singleIds token xs = [] := by
    have hne : ∀ a ∈ xs, decide (a.token = token) = false := fun a ha =>
      decide_eq_false fun h => htoken (h.symm.trans (hxs a ha))
    refine ⟨fungibleTotal_eq_zero fun a ha => ?_, singleIds_eq_nil fun a ha => ?_⟩
    · rw [Asset.isFungibleOf, hne a ha, Bool.and_false]
    · rw [Asset.isSingleOf, hne a ha, Bool.and_false]
  have hok : exchangePlan.checkBalance = .ok () := by
    refine (checkBalance_exact exchangePlan).1.mpr
      ⟨by decide, rfl, fun token => ?_, fun token => ?_⟩
    all_goals by_cases htoken : token = .zero
    · subst htoken
      exact ⟨by decide, rfl⟩
    · rw [(hother token htoken _ hin).1, (hother token htoken _ hout).1]
      exact ⟨by decide, rfl⟩
    · subst htoken
      exact .refl _
    · rw [(hother token htoken _ hin).2, (hother token htoken _ hout).2]
  refine ⟨hok, (checkBalance_exact exchangePlan).2 hok, fun h => ?_⟩
  obtain ⟨-, -, -, hsingle⟩ := (checkBalance_exact _).1.mp h
  exact absurd (hsingle .zero).length_eq (by decide)

/-- Of notes of ether alone nothing but the ether is compared. -/
theorem checkBalance_of_etherOnly {p : Plan} (hin : ∀ a ∈ p.inflowAssets, a.isEtherOnly = true)
    (hout : ∀ a ∈ p.outflowAssets, a.isEtherOnly = true)
    (hlt : etherTotal p.inflowAssets < amountBound)
    (hether : etherTotal p.inflowAssets =
      etherTotal p.outflowAssets + p.fee.toNat + externalTotal p.outflow) :
    p.checkBalance = .ok () := by
  obtain ⟨hfungible, hsingle⟩ := tokenTotals_of_etherOnly hin
  obtain ⟨hfungible', hsingle'⟩ := tokenTotals_of_etherOnly hout
  refine checkBalance_eq_ok_iff.mpr ⟨⟨hlt, fun token => ?_⟩, hether, fun token => ?_,
    fun token => ?_⟩
  · rw [hfungible token]
    decide
  · rw [hfungible token, hfungible' token]
  · rw [hsingle token, hsingle' token]

end Plan

end ShieldedWallet
