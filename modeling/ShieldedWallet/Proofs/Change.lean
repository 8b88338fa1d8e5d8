/-
The change of what is built.

Behind the outputs asked for, which stand unchanged, a plan has change for its
sender only: of each fungible token what the inputs hold beyond the requests, in
ascending order of tokens, and then the ether that is left when all is paid.

* `FungibleChange` — the surplus of fungible tokens, each token once and exact;
* `Builder.fungibleChange_of_tokenSurplus` — the token surplus of notes that
  cover a request is of this form;
* `Builder.outflow_of_build` — the outputs of every plan built.

Design notes: a token of which nothing is asked for has no surplus, because the
notes chosen hold none of it.  Single tokens have none either, since the ids
chosen are the ids asked for.
-/
import ShieldedWallet.Proofs.Conservation

namespace ShieldedWallet

/-- Change of fungible tokens: for each token that is asked for and of which more is chosen, and
for no other, one asset of exactly what is beyond, in ascending order of tokens. -/
structure FungibleChange (asked chosen change : List Asset) : Prop where
  ascending : change.Pairwise fun a b => a.token < b.token
  exceeds_iff : ∀ token, (∃ a ∈ change, a.token = token) ↔
    (∃ a ∈ asked, a.isFungibleOf token) ∧
      fungibleTotal token asked < fungibleTotal token chosen
  surplus : ∀ a ∈ change,
    a.amount.toNat = fungibleTotal a.token chosen - fungibleTotal a.token asked
  bare : ∀ a ∈ change, a.eth = 0 ∧ a.tokenId = 0

namespace Builder

/-! ### Surplus of fungible tokens -/

theorem mem_filterMap_entrySurplus_iff {picked asked : Holdings} (hp : picked.fungible.Ascending)
    {a : Asset} :
    a ∈ picked.fungible.filterMap (entrySurplus asked) ↔
      ∃ token, (asked.amountOf token).toNat < (picked.amountOf token).toNat ∧
        a = ⟨0, token, (picked.amountOf token).monus (asked.amountOf token), 0⟩ := by
  constructor
  · intro h
    obtain ⟨⟨token, amount⟩, hentry, ha⟩ := List.mem_filterMap.mp h
    obtain ⟨hne, rfl⟩ := toOption_fungible_eq_some_iff.mp ha
    have hamount : picked.amountOf token = amount := by
      rw [Holdings.amountOf, hp.get?_of_mem hentry, Option.getD_some]
    have hdiff : amount.toNat - (asked.amountOf token).toNat ≠ 0 := hne
    refine ⟨token, ?_, ?_⟩
    · rw [hamount]
      omega
    · rw [hamount]
  · rintro ⟨token, hlt, rfl⟩
    cases hget : picked.fungible.get? token with
    | none =>
      have hzero : picked.amountOf token = 0 := by
        rw [Holdings.amountOf, hget, Option.getD_none]
      rw [hzero] at hlt
      exact absurd hlt (Nat.not_lt_zero _)
    | some amount =>
      have hamount : picked.amountOf token = amount := by
        rw [Holdings.amountOf, hget, Option.getD_some]
      refine List.mem_filterMap.mpr ⟨(token, amount), TokenMap.mem_of_get? hget, ?_⟩
      rw [hamount] at hlt ⊢
      have hdiff : amount.toNat - (asked.amountOf token).toNat ≠ 0 := by omega
      exact toOption_fungible_eq_some_iff.mpr ⟨hdiff, rfl⟩

theorem filterMap_entrySurplus_ascending {m : TokenMap Amount} (hm : m.Ascending)
    (asked : Holdings) : (m.filterMap (entrySurplus asked)).Pairwise
      fun a b => a.token < b.token := by
  rw [TokenMap.Ascending, TokenMap.keys, List.pairwise_map] at hm
  refine List.pairwise_filterMap.mpr (hm.imp fun hlt a ha b hb => ?_)
  obtain ⟨-, rfl⟩ := toOption_fungible_eq_some_iff.mp ha
  obtain ⟨-, rfl⟩ := toOption_fungible_eq_some_iff.mp hb
  exact hlt

theorem fungibleChange_of_tokenSurplus {chosen : List Utxo} {asked : Holdings}
    {requested surplus : List Asset} (hasked : asked.Tallies requested)
    (hcover : Covers chosen asked) (h : tokenSurplus chosen asked = .ok surplus) :
    FungibleChange requested (assetsOf chosen) surplus := by
  obtain ⟨picked, ht, rfl⟩ := tokenSurplus_fungible hcover h
  have hmem {a : Asset} : a ∈ picked.fungible.filterMap (entrySurplus asked) ↔ _ :=
    mem_filterMap_entrySurplus_iff ht.fungible_ascending
  refine ⟨filterMap_entrySurplus_ascending ht.fungible_ascending asked, ?_, ?_, ?_⟩
  · intro token
    constructor
    · rintro ⟨a, ha, rfl⟩
      obtain ⟨token, hlt, rfl⟩ := hmem.mp ha
      rw [ht.amountOf, hasked.amountOf] at hlt
      refine ⟨(hasked.mem_fungible token).mp ?_, hlt⟩
      -- what is not asked for is not chosen either
      by_cases htoken : token ∈ asked.fungible.keys
      · exact htoken
      · rw [hcover.only token htoken] at hlt
        exact absurd hlt (Nat.not_lt_zero _)
    · rintro ⟨-, hlt⟩
      rw [← ht.amountOf, ← hasked.amountOf] at hlt
      exact ⟨_, hmem.mpr ⟨token, hlt, rfl⟩, rfl⟩
  · intro a ha
    obtain ⟨token, -, rfl⟩ := hmem.mp ha
    rw [Amount.toNat_monus, ht.amountOf, hasked.amountOf]
  · intro a ha
    obtain ⟨token, -, rfl⟩ := hmem.mp ha
    exact ⟨rfl, rfl⟩

/-! ### Outputs of change -/

section Outputs

variable {changeTo : ShieldedAddress} {salt : Nat → Felt} {first : Nat}

theorem changeOutputs_append (xs ys : List Asset) :
    changeOutputs changeTo salt first (xs ++ ys) =
      changeOutputs changeTo salt first xs ++
        changeOutputs changeTo salt (first + xs.length) ys := by
  have hindex (i : Nat) : first + (i + xs.length) = first + xs.length + i := by omega
  simp only [changeOutputs, List.mapIdx_append, hindex]

theorem mem_changeOutputs {assets : List Asset} {o : Outflow}
    (h : o ∈ changeOutputs changeTo salt first assets) :
    o.asset ∈ assets ∧ o.kind = .plain ∧ o.note.owner = changeTo := by
  obtain ⟨i, hi, rfl⟩ := List.mem_mapIdx.mp h
  exact ⟨List.getElem_mem hi, rfl, rfl⟩

end Outputs

/-! ### Building -/

section Stages

variable {b : Builder} {salt : Nat → Felt} {st : Stages}

theorem outflow_planOf (b : Builder) (salt : Nat → Felt) (st : Stages) :
    (b.planOf salt st).outflow =
      b.requests ++ changeOutputs b.changeTo salt 0 (st.surplus ++ st.etherChange) := by
  rw [planOf, tokenOutflow, changeOutputs_append, Nat.zero_add, List.append_assoc]

/-- The ether-only notes chosen hold no token, so the inputs have the surplus of the token notes. -/
theorem Reaches.fungibleChange (h : b.Reaches salt st) :
    FungibleChange (b.requests.map Outflow.asset) (b.planOf salt st).inflowAssets st.surplus := by
  obtain ⟨-, hcovers⟩ := selectTokens_ok h.tallies h.tokens
  have hchange := fungibleChange_of_tokenSurplus h.tallies hcovers h.surplus
  have htotal (token : LedgerAddress) : fungibleTotal token (b.planOf salt st).inflowAssets =
      fungibleTotal token (assetsOf st.tokens.chosen) := by
    rw [inflowAssets_planOf, fungibleTotal_append, h.etherOnly.1, Nat.add_zero]
  refine ⟨hchange.ascending, fun token => ?_, fun a ha => ?_, hchange.bare⟩
  · rw [htotal]
    exact hchange.exceeds_iff token
  · rw [htotal]
    exact hchange.surplus a ha

theorem Reaches.etherSurplus_eq (h : b.Reaches salt st) :
    etherTotal (b.planOf salt st).inflowAssets =
      etherTotal (b.requests.map Outflow.asset) + (b.planOf salt st).fee.toNat +
        externalTotal b.requests + st.ether.surplus.toNat := by
  obtain ⟨-, hcovers⟩ := selectTokens_ok h.tallies h.tokens
  obtain ⟨-, hsurplus, -, -⟩ := tokenSurplus_ok hcovers h.surplus
  have hexternal : externalTotal (b.planOf salt st).outflow = externalTotal b.requests := by
    rw [outflow_planOf, externalTotal_append, externalTotal_changeOutputs, Nat.add_zero]
  rw [h.balanced.ether, hexternal, outflowAssets_planOf, etherTotal_append, etherTotal_append,
    hsurplus, st.etherChange_totals.1]
  omega

/-- No change is a single token, and none is worth nothing. -/
theorem Reaches.change_worth (h : b.Reaches salt st) :
    ∀ a ∈ st.surplus ++ st.etherChange, a.isSingle = false ∧ (a.amount ≠ 0 ∨ a.eth ≠ 0) := by
  intro a ha
  rcases List.mem_append.mp ha with ha | ha
  · have hexceeds := (h.fungibleChange.exceeds_iff a.token).mp ⟨a, ha, rfl⟩
    have hsurplus := h.fungibleChange.surplus a ha
    have hamount : a.amount ≠ 0 := by
      rw [ne_eq, Amount.eq_zero_iff]
      omega
    have hsingle : a.isSingle = false := by
      rw [Asset.isSingle, decide_eq_false hamount, Bool.false_and]
    exact ⟨hsingle, .inl hamount⟩
  · rw [Stages.etherChange] at ha
    split at ha
    case isTrue => exact absurd ha List.not_mem_nil
    case isFalse hne =>
      rw [List.mem_singleton.mp ha]
      exact ⟨rfl, .inr hne⟩

end Stages

/-- The outputs of a plan built are the requests, unchanged and in their order, and behind them
change: plain outputs of the sender, none of a single token and none worth nothing.  First stands
the surplus of the fungible tokens asked for, in ascending order of tokens; last, unless it is
zero, the ether that the inputs hold beyond what is sent, the fee and the fees on the base
ledger. -/
theorem outflow_of_build {b : Builder} {salt : Nat → Felt} {plan : Plan}
    (hbuild : b.build salt = .ok plan) :
    ∃ (change : List Outflow) (coins : List Asset) (rest : Amount),
      plan.outflow = b.requests ++ change ∧
      (∀ o ∈ change, o.kind = .plain ∧ o.note.owner = b.changeTo ∧
        o.asset.isSingle = false ∧ (o.asset.amount ≠ 0 ∨ o.asset.eth ≠ 0)) ∧
      change.map Outflow.asset = coins ++ (if rest = 0 then [] else [.ether rest]) ∧
      FungibleChange (b.requests.map Outflow.asset) plan.inflowAssets coins ∧
      etherTotal plan.inflowAssets =
        etherTotal (b.requests.map Outflow.asset) + plan.fee.toNat + externalTotal b.requests +
          rest.toNat := by
  obtain ⟨st, hst, rfl⟩ := build_eq_ok_iff.mp hbuild
  refine ⟨changeOutputs b.changeTo salt 0 (st.surplus ++ st.etherChange), st.surplus,
    st.ether.surplus, outflow_planOf b salt st, ?_, map_asset_changeOutputs, hst.fungibleChange,
    hst.etherSurplus_eq⟩
  intro o ho
  obtain ⟨hasset, hplain, howner⟩ := mem_changeOutputs ho
  exact ⟨hplain, howner, hst.change_worth o.asset hasset⟩

/-- The plan for `mixedBuilder` gives back four of its fungible tokens, and then ether. -/
theorem outflow_of_build_mixed :
    ∃ plan change coins, mixedBuilder.build (fun _ => 0) = .ok plan ∧
      plan.outflow = mixedBuilder.requests ++ change ∧
      change.map Outflow.asset = coins ++ [.ether 10832] ∧
      FungibleChange (mixedBuilder.requests.map Outflow.asset) plan.inflowAssets coins := by
  have hbuild := mixedBuilder_reaches.build_eq
  obtain ⟨change, coins, rest, houtflow, -, hassets, hcoins, hether⟩ := outflow_of_build hbuild
  have hpaid : 20003 = 11 + 9120 + 40 + rest.toNat := hether
  have hrest : rest = 10832 := Amount.ext (show rest.toNat = 10832 by omega)
  subst hrest
  exact ⟨_, change, coins, hbuild, houtflow, hassets, hcoins⟩

end Builder

end ShieldedWallet
