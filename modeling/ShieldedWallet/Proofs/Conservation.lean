/-
Built plans are balanced.

A builder never makes a plan that fails the check of its own balance, whatever
notes it is given, whatever outputs it is asked for, and however size is
estimated.

* `Builder.Reaches.fits`, `Builder.Reaches.balanced` — a plan put together from
  the outcomes of the stages is balanced, and its totals fit;
* `Builder.build_eq_draft` — the check of the balance never fails;
* `Builder.build_balanced` — both of them for the whole of building.

Design notes: three facts meet in the balance.  The ether-only notes and the
ether of the token notes make up the price and the change; the token notes
chosen make up the request and the token surplus; and change is plain and pays
no fee on the base ledger.
-/
import ShieldedWallet.Proofs.Failures

namespace ShieldedWallet.Builder

open Holdings (Fits)

/-! ### Change -/

section Change

variable {changeTo : ShieldedAddress} {salt : Nat → Felt} {first : Nat} {assets : List Asset}

theorem map_asset_changeOutputs :
    (changeOutputs changeTo salt first assets).map Outflow.asset = assets := by
  rw [changeOutputs, List.mapIdx_eq_zipIdx_map, List.map_map]
  exact List.zipIdx_map_fst 0 assets

theorem externalTotal_changeOutputs :
    externalTotal (changeOutputs changeTo salt first assets) = 0 := by
  have hzero : (changeOutputs changeTo salt first assets).map (fun o => o.externalFee.toNat) =
      List.replicate assets.length 0 := by
    rw [changeOutputs, List.mapIdx_eq_zipIdx_map, List.map_map, List.eq_replicate_iff]
    refine ⟨by simp, fun n hn => ?_⟩
    obtain ⟨e, -, rfl⟩ := List.mem_map.mp hn
    rfl
  rw [externalTotal, hzero]
  simp

end Change

/-! ### The balance of a plan made -/

section Balance

variable {b : Builder} {salt : Nat → Felt} {st : Stages}

theorem outflowAssets_planOf (b : Builder) (salt : Nat → Felt) (st : Stages) :
    (b.planOf salt st).outflowAssets =
      b.requests.map Outflow.asset ++ st.surplus ++ st.etherChange := by
  rw [Plan.outflowAssets, planOf, tokenOutflow, List.map_append, List.map_append,
    map_asset_changeOutputs, map_asset_changeOutputs]

theorem inflowAssets_planOf (b : Builder) (salt : Nat → Felt) (st : Stages) :
    (b.planOf salt st).inflowAssets = assetsOf st.tokens.chosen ++ assetsOf st.ether.chosen :=
  List.map_append

theorem Reaches.tallies (h : b.Reaches salt st) :
    st.asked.Tallies (b.requests.map Outflow.asset) :=
  h.prepares.tallies

theorem Reaches.gathered_eq (h : b.Reaches salt st) :
    st.gathered.toNat = etherTotal (assetsOf st.tokens.chosen) :=
  h.prepares.gathered_eq

/-- Change of ether is the ether left over, and holds no token. -/
theorem Stages.etherChange_totals (st : Stages) :
    etherTotal st.etherChange = st.ether.surplus.toNat ∧
      (∀ token, fungibleTotal token st.etherChange = 0) ∧
      ∀ token, singleIds token st.etherChange = [] := by
  rw [Stages.etherChange]
  split
  case isTrue hzero => exact ⟨(Amount.eq_zero_iff.mp hzero).symm, fun _ => rfl, fun _ => rfl⟩
  case isFalse => exact ⟨Nat.add_zero _, fun _ => rfl, fun _ => rfl⟩

/-- The ether-only notes chosen hold no token. -/
theorem Reaches.etherOnly (h : b.Reaches salt st) :
    (∀ token, fungibleTotal token (assetsOf st.ether.chosen) = 0) ∧
      ∀ token, singleIds token (assetsOf st.ether.chosen) = [] := by
  refine tokenTotals_of_etherOnly fun a ha => ?_
  obtain ⟨u, hu, rfl⟩ := mem_assetsOf.mp ha
  exact (mem_etherPool.mp ((coverEther_ok h.ether).isPrefix.subset hu)).2

/-- The totals of the inputs fit 256 bits: their ether was gathered without overflow, and the token
notes were totalled for the surplus. -/
theorem Reaches.fits (h : b.Reaches salt st) : Fits (b.planOf salt st).inflowAssets := by
  obtain ⟨-, hcovers⟩ := selectTokens_ok h.tallies h.tokens
  obtain ⟨hfits, -⟩ := tokenSurplus_ok hcovers h.surplus
  rw [inflowAssets_planOf]
  refine ⟨?_, fun token => ?_⟩
  · rw [etherTotal_append, ← h.gathered_eq]
    exact (coverEther_ok h.ether).fits
  · rw [fungibleTotal_append, h.etherOnly.1, Nat.add_zero]
    exact hfits.2 token

/-- A plan put together from the outcomes of the stages is balanced. -/
theorem Reaches.balanced (h : b.Reaches salt st) : (b.planOf salt st).Balanced := by
  have htallies := h.tallies
  obtain ⟨-, hcovers⟩ := selectTokens_ok htallies h.tokens
  obtain ⟨-, hsurplusEther, hsurplus, hsurplusIds⟩ := tokenSurplus_ok hcovers h.surplus
  obtain ⟨hchangeEther, hchange, hchangeIds⟩ := st.etherChange_totals
  obtain ⟨p, hp, hfee, hcover⟩ := (coverEther_ok h.ether).priced
  obtain ⟨-, hrequired⟩ := priceOf_eq_ok_iff.mp hp
  refine ⟨?_, fun token => ?_, fun token => ?_⟩
  -- ether: the price at the count chosen, and the change beyond it
  · have hexternal : externalTotal (b.planOf salt st).outflow = st.externalFee.toNat := by
      rw [planOf, externalTotal_append, externalTotal_changeOutputs, Nat.add_zero,
        externalFees?_eq_some_iff.mp h.externalFee]
    have hout : etherTotal (b.planOf salt st).outflowAssets =
        st.asked.eth.toNat + st.ether.surplus.toNat := by
      rw [outflowAssets_planOf, etherTotal_append, etherTotal_append, hsurplusEther, hchangeEther,
        htallies.eth, Nat.add_zero]
    have hpaid : (b.planOf salt st).fee = p.fee := hfee
    rw [inflowAssets_planOf, etherTotal_append, ← h.gathered_eq, hcover, hrequired, hout,
      hexternal, hpaid]
    omega
  -- fungible tokens: the request, and the surplus of the notes chosen
  · have henough := hcovers.enough token
    rw [htallies.amountOf] at henough
    rw [inflowAssets_planOf, outflowAssets_planOf, fungibleTotal_append, fungibleTotal_append,
      fungibleTotal_append, h.etherOnly.1, hchange, hsurplus, htallies.amountOf]
    omega
  -- single tokens: the request alone
  · rw [inflowAssets_planOf, outflowAssets_planOf, singleIds_append, singleIds_append,
      singleIds_append, h.etherOnly.2, hchangeIds, hsurplusIds, hcovers.ids, htallies.idsOf]
    simp

end Balance

/-! ### Building -/

/-- What is built passes the check of its balance, and building never fails on that check. -/
theorem build_eq_draft (b : Builder) (salt : Nat → Felt) : b.build salt = b.draft salt := by
  rw [build]
  cases hdraft : b.draft salt with
  | error e => rfl
  | ok plan =>
    obtain ⟨st, hst, rfl⟩ := draft_eq_ok_iff.mp hdraft
    have hcheck := Plan.checkBalance_eq_ok_iff.mpr ⟨hst.fits, hst.balanced⟩
    rw [Except.ok_bind, hcheck]
    rfl

theorem build_eq_ok_iff {b : Builder} {salt : Nat → Felt} {plan : Plan} :
    b.build salt = .ok plan ↔ ∃ st, b.Reaches salt st ∧ plan = b.planOf salt st := by
  rw [build_eq_draft]
  exact draft_eq_ok_iff

theorem Reaches.build_eq {b : Builder} {salt : Nat → Felt} {st : Stages}
    (h : b.Reaches salt st) : b.build salt = .ok (b.planOf salt st) :=
  build_eq_ok_iff.mpr ⟨st, h, rfl⟩

/-- Building never fails on the check of its own balance, and every plan built passes it: in exact
arithmetic, its inputs are worth its outputs and fees. -/
theorem build_balanced (b : Builder) (salt : Nat → Felt) :
    (∀ cause, b.build salt ≠ .error (.unbalanced cause)) ∧
      ∀ plan, b.build salt = .ok plan → plan.checkBalance = .ok () ∧ plan.Balanced := by
  rw [build_eq_draft]
  refine ⟨draft_ne_unbalanced b salt, fun plan hplan => ?_⟩
  obtain ⟨st, hst, rfl⟩ := draft_eq_ok_iff.mp hplan
  exact ⟨Plan.checkBalance_eq_ok_iff.mpr ⟨hst.fits, hst.balanced⟩, hst.balanced⟩

/-- A note of nobody that holds an asset. -/
def looseNote (asset : Asset) : Utxo := ⟨⟨.null, 0, asset⟩, .unspent⟩

/-- A builder at ten for each byte that is asked for a part of its fungible tokens, for a single
token, and for a withdrawal of an asset that sets both an amount and an id. -/
def mixedBuilder : Builder where
  changeTo := .null
  rate := 10
  estimate := wireSize
  swap := some 0
  notes := [looseNote ⟨2, .zero, 3, 0⟩, looseNote ⟨0, .zero, 5, 0⟩, looseNote ⟨1, .zero, 0, 9⟩,
    looseNote (.ether 20000), looseNote (.ether 9000)]
  requests := [plainOutput .null 1 ⟨0, .zero, 4, 0⟩, plainOutput .null 2 ⟨0, .zero, 0, 9⟩,
    .withdrawal (newExit 3 ⟨11, .zero, 4, 9⟩ .zero 40)]

/-- The choices made for `mixedBuilder`: the dearest note of ether pays, and the change takes the
rest of the fungible tokens. -/
def mixedStages : Stages where
  asked := ⟨11, [(.zero, 4)], [(.zero, [9])]⟩
  tokens := ⟨[looseNote ⟨2, .zero, 3, 0⟩, looseNote ⟨0, .zero, 5, 0⟩, looseNote ⟨1, .zero, 0, 9⟩],
    [looseNote (.ether 9000), looseNote (.ether 20000)]⟩
  surplus := [⟨0, .zero, 4, 0⟩]
  externalFee := 40
  gathered := 3
  ether := ⟨[looseNote (.ether 20000)], 9120, 10832⟩

theorem mixedBuilder_reaches : mixedBuilder.Reaches (fun _ => 0) mixedStages := by
  have hcoins : fungibleCandidates mixedBuilder.notes .zero =
      [looseNote ⟨2, .zero, 3, 0⟩, looseNote ⟨0, .zero, 5, 0⟩] :=
    List.mergeSort_of_pairwise (by decide)
  have hpool : etherPool mixedStages.tokens.left =
      [looseNote (.ether 20000), looseNote (.ether 9000)] :=
    congrArg List.reverse (List.mergeSort_of_pairwise (by decide))
  refine ⟨rfl, ?_, rfl, rfl, rfl, ?_⟩
  · have hfirst : selectFungible mixedBuilder.notes .zero 4 = .ok
        ⟨[looseNote ⟨2, .zero, 3, 0⟩, looseNote ⟨0, .zero, 5, 0⟩],
          [looseNote ⟨1, .zero, 0, 9⟩, looseNote (.ether 20000), looseNote (.ether 9000)]⟩ := by
      rw [selectFungible, hcoins]
      rfl
    refine Except.bind_eq_ok_iff.mpr ⟨⟨_, _⟩, Except.bind_eq_ok_iff.mpr ⟨_, hfirst, rfl⟩, rfl⟩
  · rw [hpool]
    rfl

theorem build_balanced_mixed :
    ∃ plan, mixedBuilder.build (fun _ => 0) = .ok plan ∧
      plan.inflow.length = 4 ∧ plan.outflow.length = 5 ∧ plan.fee = 9120 ∧
      plan.checkBalance = .ok () ∧ plan.Balanced :=
  have hbuild := (build_eq_draft _ _).trans (draft_eq_ok_iff.mpr ⟨_, mixedBuilder_reaches, rfl⟩)
  ⟨_, hbuild, rfl, rfl, rfl, (build_balanced _ _).2 _ hbuild⟩

end ShieldedWallet.Builder
