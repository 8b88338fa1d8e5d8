/-
Plans that no order matters for.

A builder may be told of its notes and its outputs in any order.  The plan then
spends the same assets, pays the same fee and makes outputs of the same assets, or
there is no plan in either order.

* `UniformEther` — token notes that agree in all but their ether agree in it too;
* `Builder.Reorders` — builders that differ in the order of notes and outputs only;
* `offersAlike_of_perm` — such notes offer the same tokens;
* `Builder.Reorders.exists_reaches` — the stages of both, one by one;
* `Builder.build_of_reorders` — the plans of both.

Design notes: of two notes that agree in token and amount the one at hand first is
spent, so without `UniformEther` the order decides how much ether is left to find.
The notes themselves may differ, since notes of one asset may have different
owners and salts.  No estimate of sizes is excluded.
-/
import ShieldedWallet.Proofs.AlikeNotes
import ShieldedWallet.Proofs.Change

namespace ShieldedWallet

/-! ### Notes in another order -/

/-- Fungible tokens of one contract and amount come with the same ether, and so do single tokens of
one contract and id. -/
structure UniformEther (assets : List Asset) : Prop where
  fungible : ∀ a ∈ assets, ∀ b ∈ assets, a.isFungible = true → b.isFungible = true →
    a.token = b.token → a.amount = b.amount → a.eth = b.eth
  single : ∀ a ∈ assets, ∀ b ∈ assets, a.isSingle = true → b.isSingle = true →
    a.token = b.token → a.tokenId = b.tokenId → a.eth = b.eth

section Notes

variable {us vs : List Utxo}

theorem UniformEther.perm {assets assets' : List Asset} (h : UniformEther assets)
    (hperm : assets.Perm assets') : UniformEther assets' :=
  ⟨fun a ha b hb => h.fungible a (hperm.mem_iff.mpr ha) b (hperm.mem_iff.mpr hb),
    fun a ha b hb => h.single a (hperm.mem_iff.mpr ha) b (hperm.mem_iff.mpr hb)⟩

theorem assetsOf_take (us : List Utxo) (k : Nat) : assetsOf (us.take k) = (assetsOf us).take k :=
  List.map_take

/-- Notes in an order that tells all different assets apart have their assets in one order only. -/
theorem assetsOf_eq_of_perm (le : Asset → Asset → Prop)
    (hanti : ∀ a ∈ assetsOf us, ∀ b ∈ assetsOf us, le a b → le b a → a = b)
    (hus : us.Pairwise fun u v => le u.asset v.asset)
    (hvs : vs.Pairwise fun u v => le u.asset v.asset) (h : us.Perm vs) :
    assetsOf us = assetsOf vs := by
  have hassets : (assetsOf us).Perm (assetsOf vs) := h.map _
  have hleft : (assetsOf us).Pairwise le := List.pairwise_map.mpr hus
  have hright : (assetsOf vs).Pairwise le := List.pairwise_map.mpr hvs
  refine List.Perm.eq_of_pairwise (fun a b ha hb => ?_) hleft hright hassets
  exact hanti a ha b (hassets.mem_iff.mpr hb)

theorem fungibleCandidates_of_perm (huniform : UniformEther (assetsOf us)) (h : us.Perm vs)
    (token : LedgerAddress) :
    assetsOf (fungibleCandidates us token) = assetsOf (fungibleCandidates vs token) := by
  have horder := fungibleCandidates_order us token
  have horder' := fungibleCandidates_order vs token
  have hperm : (fungibleCandidates us token).Perm (fungibleCandidates vs token) :=
    horder.perm.trans ((h.filter _).trans horder'.perm.symm)
  have hmem {a : Asset} (ha : a ∈ assetsOf (fungibleCandidates us token)) :
      a ∈ assetsOf us ∧ a.isFungible = true ∧ a.token = token := by
    obtain ⟨u, hu, rfl⟩ := mem_assetsOf.mp ha
    obtain ⟨hu, hholds⟩ := List.mem_filter.mp (horder.perm.mem_iff.mp hu)
    exact ⟨mem_assetsOf.mpr ⟨u, hu, rfl⟩, holdsFungible_iff.mp hholds⟩
  refine assetsOf_eq_of_perm (fun a b => a.amount ≤ b.amount) (fun a ha b hb hab hba => ?_)
    horder.ascending horder'.ascending hperm
  obtain ⟨ha, hfungible, htoken⟩ := hmem ha
  obtain ⟨hb, hfungible', htoken'⟩ := hmem hb
  have hsame : a.token = b.token := htoken.trans htoken'.symm
  have hamount : a.amount = b.amount := Amount.ext (Nat.le_antisymm hab hba)
  have heth := huniform.fungible a ha b hb hfungible hfungible' hsame hamount
  simp only [Asset.isFungible, Bool.and_eq_true, decide_eq_true_eq] at hfungible hfungible'
  exact Asset.ext heth hsame hamount (hfungible.2.trans hfungible'.2.symm)

theorem offersAlike_of_perm (huniform : UniformEther (assetsOf us)) (h : us.Perm vs) :
    OffersAlike us vs := by
  refine ⟨fungibleCandidates_of_perm huniform h, (h.map _).filter _,
    fun a ha b hb htoken hid => ?_⟩
  obtain ⟨ha, hsingle⟩ := List.mem_filter.mp ha
  obtain ⟨hb, hsingle'⟩ := List.mem_filter.mp hb
  have heth := huniform.single a ha b hb hsingle hsingle' htoken hid
  simp only [Asset.isSingle, Bool.and_eq_true, decide_eq_true_eq] at hsingle hsingle'
  exact Asset.ext heth htoken (hsingle.1.trans hsingle'.1.symm) hid

end Notes

namespace Builder

/-! ### Builders in another order -/

/-- The builders differ at most in the order of notes at hand and of outputs asked for. -/
structure Reorders (b b' : Builder) : Prop where
  changeTo : b.changeTo = b'.changeTo
  rate : b.rate = b'.rate
  estimate : b.estimate = b'.estimate
  swap : b.swap = b'.swap
  notes : b.notes.Perm b'.notes
  requests : b.requests.Perm b'.requests

section Reorders

variable {b b' : Builder} {salt salt' : Nat → Felt} {t t' : Preparation} {st st' : Stages}

theorem Reorders.symm (h : b.Reorders b') : b'.Reorders b :=
  ⟨h.changeTo.symm, h.rate.symm, h.estimate.symm, h.swap.symm, h.notes.symm, h.requests.symm⟩

theorem Reorders.pricedSize_eq (h : b.Reorders b') (changes inputs : Nat) :
    b.pricedSize changes inputs = b'.pricedSize changes inputs := by
  rw [pricedSize, pricedSize, h.estimate, h.swap, h.requests.length_eq, publicCount_perm h.requests]

theorem Reorders.requiredEther_eq (h : b.Reorders b') (changes inputs : Nat) :
    b.requiredEther changes inputs = b'.requiredEther changes inputs := by
  rw [Builder.requiredEther_eq, Builder.requiredEther_eq, h.rate, h.pricedSize_eq,
    externalTotal_perm h.requests, etherTotal_perm (h.requests.map _)]

/-- The pools hold the same assets in the same order. -/
theorem Reorders.pool_assets (h : b.Reorders b') (ht : b.Prepares salt t)
    (ht' : b'.Prepares salt' t') :
    assetsOf (etherPool t.tokens.left) = assetsOf (etherPool t'.tokens.left) := by
  have hnotes : b.etherNotes.Perm b'.etherNotes := h.notes.filter _
  have hether {a : Asset} (ha : a ∈ assetsOf (etherPool t.tokens.left)) :
      a.token = .zero ∧ a.amount = 0 ∧ a.tokenId = 0 := by
    obtain ⟨u, hu, rfl⟩ := mem_assetsOf.mp ha
    have hu := (mem_etherPool.mp hu).2
    simp only [Asset.isEtherOnly, Bool.and_eq_true, decide_eq_true_eq] at hu
    exact ⟨hu.1.1, hu.1.2, hu.2⟩
  refine assetsOf_eq_of_perm (fun a a' => a'.eth ≤ a.eth) (fun a ha a' ha' hge hle => ?_)
    (etherPool_descending _) (etherPool_descending _)
    (ht.pool_perm.trans (hnotes.trans ht'.pool_perm.symm))
  obtain ⟨htoken, hamount, hid⟩ := hether ha
  obtain ⟨htoken', hamount', hid'⟩ := hether ha'
  exact Asset.ext (Amount.ext (Nat.le_antisymm hle hge)) (htoken.trans htoken'.symm)
    (hamount.trans hamount'.symm) (hid.trans hid'.symm)

/-- A count that pays for one of the builders pays for the other. -/
theorem Reorders.pays (h : b.Reorders b') {pool pool' : List Utxo} {k : Nat}
    (hsurplus : t.surplus = t'.surplus)
    (hchosen : (assetsOf t.tokens.chosen).Perm (assetsOf t'.tokens.chosen))
    (hpool : assetsOf pool = assetsOf pool') (hk : b.Pays t pool k) : b'.Pays t' pool' k := by
  have htake : assetsOf (pool.take k) = assetsOf (pool'.take k) := by
    rw [assetsOf_take, assetsOf_take, hpool]
  have hether := etherTotal_perm hchosen
  refine hk.transfer (fun n => ?_) (length_eq_of_assetsOf_perm hchosen).symm hether.symm ?_ ?_ ?_
  · rw [← h.requiredEther_eq, hsurplus]
  · rw [← length_eq_of_assetsOf_perm (.of_eq hpool)]
    exact hk.le_length
  · rw [htake]
  · rw [← hether, ← htake]
    exact hk.fits

/-- Stage by stage both builders come to the same, up to the order of token notes. -/
theorem Reorders.exists_reaches (h : b.Reorders b') (huniform : UniformEther (assetsOf b.notes))
    (hst : b.Reaches salt st) (salt' : Nat → Felt) :
    ∃ st', b'.Reaches salt' st' ∧ st'.surplus = st.surplus ∧
      (assetsOf st'.tokens.chosen).Perm (assetsOf st.tokens.chosen) ∧
        assetsOf st'.ether.chosen = assetsOf st.ether.chosen := by
  obtain ⟨t', ht', hsurplus, hchosen⟩ :=
    hst.prepares.of_alike (offersAlike_of_perm huniform h.notes) h.requests salt'
  have hpool := h.pool_assets hst.prepares ht'
  have hpays := h.pays hsurplus.symm hchosen.symm hpool hst.pays
  obtain ⟨st', hst', rfl⟩ := ht'.exists_reaches hpays
  -- the count of either choice pays for the other one as well
  have hpays' := h.symm.pays hsurplus hchosen hpool.symm hst'.pays
  have hcount : st'.ether.chosen.length = st.ether.chosen.length :=
    Nat.le_antisymm (hst'.isLeast_pays.2 hpays) (hst.isLeast_pays.2 hpays')
  refine ⟨st', hst', hsurplus, hchosen, ?_⟩
  rw [hst'.chosen_eq_take, hst.chosen_eq_take, hcount, assetsOf_take, assetsOf_take]
  exact congrArg (List.take _) hpool.symm

/-- What is built then has the same fee, and the same assets on both sides. -/
theorem Reorders.exists_build {plan : Plan} (h : b.Reorders b')
    (huniform : UniformEther (assetsOf b.notes)) (hbuild : b.build salt = .ok plan)
    (salt' : Nat → Felt) :
    ∃ plan', b'.build salt' = .ok plan' ∧ plan'.fee = plan.fee ∧
      plan'.inflowAssets.Perm plan.inflowAssets ∧ plan'.outflowAssets.Perm plan.outflowAssets := by
  obtain ⟨st, hst, rfl⟩ := build_eq_ok_iff.mp hbuild
  obtain ⟨st', hst', hsurplus, hchosen, hether⟩ := h.exists_reaches huniform hst salt'
  have hcoins := length_eq_of_assetsOf_perm hchosen
  have hcount := length_eq_of_assetsOf_perm (.of_eq hether)
  have hfee : (b'.planOf salt' st').fee = (b.planOf salt st).fee := by
    apply Amount.ext
    rw [hst'.fee_eq_price, hst.fee_eq_price, ← h.rate, ← h.pricedSize_eq, hsurplus, hcoins, hcount]
  have hinflow : (b'.planOf salt' st').inflowAssets.Perm (b.planOf salt st).inflowAssets := by
    rw [inflowAssets_planOf, inflowAssets_planOf, hether]
    exact hchosen.append_right _
  -- the ether that is left follows from all the other totals
  have hleft : st'.ether.surplus = st.ether.surplus := by
    have htotal := hst.etherSurplus_eq
    have htotal' := hst'.etherSurplus_eq
    rw [hfee, etherTotal_perm hinflow, ← externalTotal_perm h.requests,
      ← etherTotal_perm (h.requests.map _)] at htotal'
    apply Amount.ext
    omega
  have hchange : st'.etherChange = st.etherChange := by
    rw [Stages.etherChange, Stages.etherChange, hleft]
  refine ⟨_, hst'.build_eq, hfee, hinflow, ?_⟩
  rw [outflowAssets_planOf, outflowAssets_planOf, hsurplus, hchange]
  exact ((h.requests.map _).symm.append_right _).append_right _

end Reorders

/-- Of two builders that differ in the order of notes and outputs only, with token notes of uniform
ether, both build a plan or neither does.  The two plans have the same fee, and their inputs and
their outputs have the same assets, up to order. -/
theorem build_of_reorders {b b' : Builder} (h : b.Reorders b')
    (huniform : UniformEther (assetsOf b.notes)) (salt salt' : Nat → Felt) :
    ((∃ plan, b.build salt = .ok plan) ↔ ∃ plan', b'.build salt' = .ok plan') ∧
      ∀ plan plan', b.build salt = .ok plan → b'.build salt' = .ok plan' →
        plan'.fee = plan.fee ∧ plan'.inflowAssets.Perm plan.inflowAssets ∧
          plan'.outflowAssets.Perm plan.outflowAssets := by
  refine ⟨⟨?_, ?_⟩, fun plan plan' hbuild hbuild' => ?_⟩
  · rintro ⟨plan, hbuild⟩
    obtain ⟨plan', hbuild', -⟩ := h.exists_build huniform hbuild salt'
    exact ⟨plan', hbuild'⟩
  · rintro ⟨plan', hbuild'⟩
    have huniform' : UniformEther (assetsOf b'.notes) := huniform.perm (h.notes.map _)
    obtain ⟨plan, hbuild, -⟩ := h.symm.exists_build huniform' hbuild' salt
    exact ⟨plan, hbuild⟩
  · obtain ⟨found, hfound, halike⟩ := h.exists_build huniform hbuild salt'
    obtain rfl := Except.ok.inj (hbuild'.symm.trans hfound)
    exact halike

/-- The notes and the outputs of `mixedBuilder`, last first. -/
def reversedBuilder : Builder :=
  { mixedBuilder with
    notes := mixedBuilder.notes.reverse
    requests := mixedBuilder.requests.reverse }

/-- Told last first, `mixedBuilder` builds a plan of the same fee and the same assets. -/
theorem build_of_reorders_reversed :
    ∃ plan plan', mixedBuilder.build (fun _ => 0) = .ok plan ∧
      reversedBuilder.build (fun _ => 1) = .ok plan' ∧ plan'.fee = 9120 ∧
        plan'.inflowAssets.Perm plan.inflowAssets ∧ plan'.outflowAssets.Perm plan.outflowAssets := by
  have hbuild := mixedBuilder_reaches.build_eq
  have hreorders : mixedBuilder.Reorders reversedBuilder :=
    ⟨rfl, rfl, rfl, rfl, (List.reverse_perm _).symm, (List.reverse_perm _).symm⟩
  have huniform : UniformEther (assetsOf mixedBuilder.notes) := ⟨by decide, by decide⟩
  obtain ⟨hiff, halike⟩ := build_of_reorders hreorders huniform (fun _ => 0) fun _ => 1
  obtain ⟨plan', hbuild'⟩ := hiff.mp ⟨_, hbuild⟩
  obtain ⟨hfee, hassets⟩ := halike _ _ hbuild hbuild'
  exact ⟨_, plan', hbuild, hbuild', hfee, hassets⟩

end Builder

end ShieldedWallet
