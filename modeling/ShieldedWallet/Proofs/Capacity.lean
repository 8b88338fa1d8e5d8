/-
What fits on the wire of what is built.

Counts of inputs and outputs take one byte each on the wire, and the only check
of them stands where a transaction is put together.  A builder does not count:
it takes as many notes as the requests need.

* `Builder.askedTokens` — the fungible tokens that are asked for;
* `Builder.Reaches.inflow_subperm` — the inputs are notes at hand, each taken
  once;
* `Builder.Reaches.length_outflow_le` — behind the requests there is at most one
  output for each token asked for, and one of ether;
* `Builder.make?_of_build` — a plan built makes a transaction exactly if neither
  count exceeds 255, which so few notes and requests ensure;
* `Builder.takeUntil_replicate` — small notes that make up an amount together are
  all taken, also where a larger one behind them would do.
-/
import Mathlib.Data.List.Dedup
import ShieldedWallet.Proofs.FewestInputs
import ShieldedWallet.Proofs.FungibleSelection

namespace ShieldedWallet

namespace Builder

/-- The fungible tokens that outputs ask for, each once. -/
def askedTokens (b : Builder) : List LedgerAddress :=
  (((b.requests.map Outflow.asset).filter Asset.isFungible).map Asset.token).dedup

section Counts

variable {b : Builder} {salt : Nat → Felt} {st : Stages}

theorem mem_askedTokens {token : LedgerAddress} :
    token ∈ b.askedTokens ↔ ∃ a ∈ b.requests.map Outflow.asset, a.isFungibleOf token := by
  rw [askedTokens, List.mem_dedup, List.mem_map]
  simp only [List.mem_filter, Asset.isFungibleOf, Bool.and_eq_true, decide_eq_true_eq, and_assoc]

/-- Surplus is of tokens that are asked for, of each at most once. -/
theorem length_tokenSurplus_le {chosen : List Utxo} {asked : Holdings} {surplus : List Asset}
    (hcover : Covers chosen asked) (h : tokenSurplus chosen asked = .ok surplus) :
    surplus.length ≤ asked.fungible.keys.length := by
  obtain ⟨picked, ht, rfl⟩ := tokenSurplus_fungible hcover h
  have hkeys : picked.fungible.keys ⊆ asked.fungible.keys := by
    intro token htoken
    by_contra hnot
    have hpos := fungibleTotal_pos ((ht.mem_fungible token).mp htoken)
    rw [hcover.only token hnot] at hpos
    exact Nat.lt_irrefl 0 hpos
  calc (picked.fungible.filterMap (entrySurplus asked)).length
      ≤ picked.fungible.length := List.length_filterMap_le _ _
    _ = picked.fungible.keys.length := (List.length_map _).symm
    _ ≤ asked.fungible.keys.length :=
        (List.subperm_of_subset ht.fungible_ascending.nodup hkeys).length_le

theorem Reaches.length_surplus_le (h : b.Reaches salt st) :
    st.surplus.length ≤ b.askedTokens.length := by
  have hcover := (selectTokens_ok h.tallies h.tokens).2
  have hasked : st.asked.fungible.keys ⊆ b.askedTokens := fun token htoken =>
    mem_askedTokens.mpr ((h.tallies.mem_fungible token).mp htoken)
  exact Nat.le_trans (length_tokenSurplus_le hcover h.surplus)
    (List.subperm_of_subset h.tallies.fungible_ascending.nodup hasked).length_le

theorem Reaches.length_outflow_le (h : b.Reaches salt st) :
    (b.planOf salt st).outflow.length ≤ b.requests.length + b.askedTokens.length + 1 := by
  have hsurplus := h.length_surplus_le
  have hchange := length_etherChange st
  rw [length_outflow_planOf, tokenOutflow, List.length_append, length_changeOutputs]
  split at hchange
  · omega
  · omega

/-- The inputs are notes at hand, none taken twice. -/
theorem Reaches.inflow_subperm (h : b.Reaches salt st) :
    (b.planOf salt st).inflow.Subperm b.notes := by
  have hparts : (st.tokens.chosen ++ st.tokens.left).Perm b.notes :=
    (selectTokens_ok h.tallies h.tokens).1
  have hchosen : st.ether.chosen.Subperm st.tokens.left := by
    have hpool := (coverEther_ok h.ether).isPrefix.sublist.subperm
    have hfilter := (etherPool_perm st.tokens.left).subperm
    exact (hpool.trans hfilter).trans List.filter_sublist.subperm
  exact ((List.subperm_append_left st.tokens.chosen).mpr hchosen).trans hparts.subperm

end Counts

/-- A plan built makes a transaction, with any spends of its inputs, proof and memo, exactly if
neither count exceeds 255, and the count that does is reported.  The inputs are notes at hand;
behind the requests there is at most one output for each fungible token asked for, and one of ether.
So a builder of at most 255 notes, and of so few requests, never plans too much. -/
theorem make?_of_build {b : Builder} {salt : Nat → Felt} {plan : Plan} {inflow : List Spend}
    (proof : Groth16Proof) (memo : Option Memo) (hbuild : b.build salt = .ok plan)
    (hinflow : inflow.length = plan.inflow.length) :
    Transaction.make? inflow (plan.outflow.map OutflowView.ofOutflow) plan.fee proof plan.swap
          memo =
        (if 255 < plan.inflow.length then .error (.tooManyInflows plan.inflow.length)
        else if 255 < plan.outflow.length then .error (.tooManyOutflows plan.outflow.length)
        else .ok ⟨inflow, plan.outflow.map OutflowView.ofOutflow, plan.fee, proof, plan.swap,
          memo⟩) ∧
      plan.inflow.Subperm b.notes ∧ b.requests <+: plan.outflow ∧
        plan.outflow.length ≤ b.requests.length + b.askedTokens.length + 1 ∧
          (b.notes.length ≤ 255 → b.requests.length + b.askedTokens.length + 1 ≤ 255 →
            ∃ tx, Transaction.make? inflow (plan.outflow.map OutflowView.ofOutflow) plan.fee proof
              plan.swap memo = .ok tx) := by
  rw [build_eq_draft] at hbuild
  obtain ⟨st, hst, rfl⟩ := draft_eq_ok_iff.mp hbuild
  have hrequests : b.requests <+: (b.planOf salt st).outflow := by
    rw [planOf, tokenOutflow, List.append_assoc]
    exact List.prefix_append _ _
  rw [Transaction.make?_map_ofOutflow, hinflow]
  refine ⟨rfl, hst.inflow_subperm, hrequests, hst.length_outflow_le, fun hnotes houtputs => ?_⟩
  have hin : (b.planOf salt st).inflow.length ≤ 255 :=
    Nat.le_trans hst.inflow_subperm.length_le hnotes
  have hout : (b.planOf salt st).outflow.length ≤ 255 :=
    Nat.le_trans hst.length_outflow_le houtputs
  rw [if_neg (Nat.not_lt.mpr hin), if_neg (Nat.not_lt.mpr hout)]
  exact ⟨_, rfl⟩

theorem make?_of_build_mixed :
    ∃ plan tx, mixedBuilder.build (fun _ => 0) = .ok plan ∧
      plan.outflow.length = mixedBuilder.requests.length + mixedBuilder.askedTokens.length + 1 ∧
        Transaction.make? [⟨1, 2⟩, ⟨3, 2⟩, ⟨5, 2⟩, ⟨7, 2⟩] (plan.outflow.map OutflowView.ofOutflow)
          plan.fee ⟨1, 2, 3, 4, 5, 6, 7, 8⟩ plan.swap none = .ok tx := by
  have hbuild := (build_eq_draft _ _).trans (draft_eq_ok_iff.mpr ⟨_, mixedBuilder_reaches, rfl⟩)
  obtain ⟨-, -, -, -, hfits⟩ := make?_of_build ⟨1, 2, 3, 4, 5, 6, 7, 8⟩ none hbuild
    (show [(⟨1, 2⟩ : Spend), ⟨3, 2⟩, ⟨5, 2⟩, ⟨7, 2⟩].length = _ from rfl)
  obtain ⟨tx, hmake⟩ := hfits (by decide) (by decide)
  exact ⟨_, tx, hbuild, rfl, hmake⟩

/-! ### Many small notes -/

theorem amountTotal_replicate (n : Nat) (u : Utxo) :
    amountTotal (List.replicate n u) = n * u.asset.amount.toNat := by
  rw [amountTotal, List.map_replicate, List.sum_replicate_nat]

/-- Of equal notes that make up the amount together all are taken, whatever stands behind them. -/
theorem takeUntil_replicate {asked gathered : Amount} {u : Utxo} {n : Nat} (behind : List Utxo)
    (hu : 0 < u.asset.amount.toNat)
    (htotal : gathered.toNat + n * u.asset.amount.toNat = asked.toNat) :
    takeUntil asked gathered (List.replicate n u ++ behind) =
      .ok (List.replicate n u, asked, behind) := by
  have hrun : ShortestRun asked.toNat gathered.toNat (List.replicate n u) := by
    constructor
    · rw [amountTotal_replicate]
      omega
    · intro k hk
      rw [List.length_replicate] at hk
      have hless : k * u.asset.amount.toNat < n * u.asset.amount.toNat :=
        Nat.mul_lt_mul_of_pos_right hk hu
      rw [List.take_replicate, Nat.min_eq_left (Nat.le_of_lt hk), amountTotal_replicate]
      omega
  have hreached : Amount.ofNat? (gathered.toNat + amountTotal (List.replicate n u)) =
      some asked := by
    rw [amountTotal_replicate, htotal]
    exact Amount.ofNat?_eq_some_iff.mpr rfl
  rw [takeUntil_of_shortestRun hrun, hreached]

/-- Where one fungible token is all that is asked for, its notes are the token notes. -/
theorem selectTokens_of_selectFungible {available : List Utxo} {eth asked : Amount}
    {token : LedgerAddress} {s : Selection} (h : selectFungible available token asked = .ok s) :
    selectTokens available ⟨eth, [(token, asked)], []⟩ = .ok s := by
  have hcoins : selectFungibles available [(token, asked)] = .ok ⟨s.chosen ++ [], s.left⟩ :=
    selectFungibles_cons_eq_ok_iff.mpr ⟨s, ⟨[], s.left⟩, h, rfl, rfl⟩
  rw [List.append_nil] at hcoins
  refine selectTokens_eq_ok_iff.mpr ⟨s, ⟨[], s.left⟩, hcoins, rfl, ?_⟩
  rw [List.append_nil]

/-- One of a token. -/
def grain : Utxo := looseNote ⟨0, .zero, 1, 0⟩

/-- As much of the token as 256 grains. -/
def sack : Utxo := looseNote ⟨0, .zero, 256, 0⟩

/-- A builder without a fee that is asked for what it has in one note, and in 256 small ones. -/
def sandyBuilder : Builder where
  changeTo := .null
  rate := 0
  estimate := wireSize
  swap := none
  notes := List.replicate 256 grain ++ [sack]
  requests := [plainOutput .null 1 ⟨0, .zero, 256, 0⟩]

/-- The choices made for `sandyBuilder`: all the grains. -/
def sandyStages : Stages where
  asked := ⟨0, [(.zero, 256)], []⟩
  tokens := ⟨List.replicate 256 grain, [sack]⟩
  surplus := []
  externalFee := 0
  gathered := 0
  ether := ⟨[], 0, 0⟩

theorem fungibleCandidates_sandyBuilder :
    fungibleCandidates sandyBuilder.notes .zero = List.replicate 256 grain ++ [sack] := by
  have hnotes : ∀ u ∈ sandyBuilder.notes, u = grain ∨ u = sack := by
    intro u hu
    rcases List.mem_append.mp hu with hu | hu
    · exact .inl (List.eq_of_mem_replicate hu)
    · exact .inr (List.mem_singleton.mp hu)
  have hall : sandyBuilder.notes.filter (holdsFungible .zero) =
      List.replicate 256 grain ++ [sack] := List.filter_eq_self.mpr fun u hu => by
      rcases hnotes u hu with rfl | rfl
      · rfl
      · rfl
  rw [fungibleCandidates, hall]
  refine List.mergeSort_of_pairwise (List.pairwise_append.mpr ⟨?_, List.pairwise_singleton _ _, ?_⟩)
  · exact List.pairwise_replicate.mpr (.inr rfl)
  · intro u hu v hv
    rw [List.eq_of_mem_replicate hu, List.mem_singleton.mp hv]
    rfl

theorem sandyBuilder_reaches : sandyBuilder.Reaches (fun _ => 0) sandyStages := by
  have hfirst : selectFungible sandyBuilder.notes .zero 256 =
      .ok ⟨List.replicate 256 grain, [sack]⟩ := by
    rw [selectFungible, fungibleCandidates_sandyBuilder]
    exact Except.bind_eq_ok_iff.mpr ⟨_, takeUntil_replicate [sack] Nat.one_pos rfl, rfl⟩
  have hpool : etherPool sandyStages.tokens.left = [] :=
    List.perm_nil.mp (etherPool_perm sandyStages.tokens.left)
  have hsurplus : tokenSurplus sandyStages.tokens.chosen sandyStages.asked = .ok [] := by
    decide +kernel
  have hgathered : Amount.sum? (sandyStages.tokens.chosen.map fun u => u.asset.eth) = some 0 := by
    decide +kernel
  have hprice (inputs : Nat) : sandyBuilder.priceAt 0 0 (sandyBuilder.tokenOutflow (fun _ => 0) [])
      inputs = .ok ⟨0, 0⟩ := priceOf_eq_ok_iff.mpr ⟨(Nat.zero_mul _).symm, rfl⟩
  refine ⟨rfl, selectTokens_of_selectFungible hfirst, hsurplus, rfl, hgathered, ?_⟩
  rw [hpool]
  exact Except.bind_eq_ok_iff.mpr ⟨_, hprice _, rfl⟩

/-- A plan of 256 inputs is built where one note would do, and no transaction can be made of it. -/
theorem make?_refuses_sandy :
    ∃ plan, sandyBuilder.build (fun _ => 0) = .ok plan ∧ plan.inflow.length = 256 ∧
      Transaction.make? (List.replicate 256 ⟨1, 2⟩) (plan.outflow.map OutflowView.ofOutflow)
        plan.fee ⟨1, 2, 3, 4, 5, 6, 7, 8⟩ plan.swap none = .error (.tooManyInflows 256) := by
  have hbuild := (build_eq_draft _ _).trans (draft_eq_ok_iff.mpr ⟨_, sandyBuilder_reaches, rfl⟩)
  have hlen : (sandyBuilder.planOf (fun _ => 0) sandyStages).inflow.length = 256 := by
    show (List.replicate 256 grain ++ []).length = 256
    rw [List.append_nil, List.length_replicate]
  refine ⟨_, hbuild, hlen, ?_⟩
  rw [Transaction.make?_map_ofOutflow, List.length_replicate, if_pos (by decide)]

end Builder

end ShieldedWallet
