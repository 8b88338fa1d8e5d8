/-
What is charged is the size on the wire.

A builder prices a plan long before its transaction is written, by the counts of
inputs and outputs and with one output reserved for change of ether.  The bytes
written later bear the price out: their count is the size of the transaction
(`Transaction.length_encode`).

* `Builder.ReturnsEther` — change of ether was added to a plan;
* `Builder.Reaches.fee_eq` — the fee is the rate times the size of the plan, with
  an output more if no change of ether was added;
* `Builder.fee_eq_of_build` — the same against the bytes of any transaction made
  of a plan built, less its memo.

Design notes: the two sides meet in `estimateSize`.  The bytes give it the counts
of the transaction, the builder those of the plan when the last input was chosen.
-/
import ShieldedWallet.Proofs.Conservation
import ShieldedWallet.Proofs.Size

namespace ShieldedWallet

/-! ### Views of a plan -/

namespace Transaction

/-- Views of outputs make a transaction if there are not too many. -/
theorem make?_views {inflow : List Spend} {os : List Outflow} {fee : Amount} {proof : Groth16Proof}
    {swap : Option Felt} {memo : Option Memo} (hinflow : inflow.length ≤ 255)
    (houtflow : os.length ≤ 255) :
    make? inflow (os.map OutflowView.ofOutflow) fee proof swap memo =
      .ok ⟨inflow, os.map OutflowView.ofOutflow, fee, proof, swap, memo⟩ := by
  rw [make?_map_ofOutflow, if_neg (Nat.not_lt.mpr hinflow), if_neg (Nat.not_lt.mpr houtflow)]

end Transaction

/-! ### Outputs of a plan built -/

namespace Builder

/-- Among the outputs behind the requests there is one of ether only: change of ether was added. -/
def ReturnsEther (b : Builder) (plan : Plan) : Prop :=
  ∃ o ∈ plan.outflow.drop b.requests.length, o.asset.isEtherOnly = true

instance (b : Builder) (plan : Plan) : Decidable (b.ReturnsEther plan) :=
  inferInstanceAs (Decidable (∃ o ∈ _, _))

theorem publicCount_append (os os' : List Outflow) :
    publicCount (os ++ os') = publicCount os + publicCount os' := List.countP_append

theorem publicCount_changeOutputs {changeTo : ShieldedAddress} {salt : Nat → Felt} {first : Nat}
    {assets : List Asset} : publicCount (changeOutputs changeTo salt first assets) = 0 := by
  rw [publicCount, List.countP_eq_zero]
  intro o ho
  rw [changeOutputs, List.mapIdx_eq_zipIdx_map] at ho
  obtain ⟨e, -, rfl⟩ := List.mem_map.mp ho
  exact Bool.false_ne_true

theorem length_changeOutputs {changeTo : ShieldedAddress} {salt : Nat → Felt} {first : Nat}
    {assets : List Asset} : (changeOutputs changeTo salt first assets).length = assets.length :=
  List.length_mapIdx

/-- Token surplus names an amount or an id. -/
theorem isEtherOnly_of_mem_tokenSurplus {chosen : List Utxo} {asked : Holdings}
    {surplus : List Asset} (h : tokenSurplus chosen asked = .ok surplus) :
    ∀ a ∈ surplus, a.isEtherOnly = false := by
  obtain ⟨picked, -, hpure⟩ := Except.bind_eq_ok_iff.mp h
  cases hpure
  intro a ha
  rcases List.mem_append.mp ha with ha | ha
  · rw [fungibleSurplus_eq] at ha
    obtain ⟨e, -, he⟩ := List.mem_filterMap.mp ha
    obtain ⟨hne, rfl⟩ := toOption_fungible_eq_some_iff.mp he
    rw [ne_eq, ← Amount.eq_zero_iff] at hne
    simp [Asset.isEtherOnly, hne]
  · obtain ⟨e, -, ha⟩ := List.mem_flatMap.mp ha
    obtain ⟨id, -, hid⟩ := List.mem_filterMap.mp ha
    rw [Asset.single] at hid
    split at hid
    case isTrue => cases hid
    case isFalse hne =>
      cases hid
      simp [Asset.isEtherOnly, hne]

section Stages

variable {b : Builder} {salt : Nat → Felt} {st : Stages}

theorem length_outflow_planOf (b : Builder) (salt : Nat → Felt) (st : Stages) :
    (b.planOf salt st).outflow.length =
      (b.tokenOutflow salt st.surplus).length + st.etherChange.length := by
  rw [planOf, List.length_append, length_changeOutputs]

theorem publicCount_planOf (b : Builder) (salt : Nat → Felt) (st : Stages) :
    publicCount (b.planOf salt st).outflow = publicCount (b.tokenOutflow salt st.surplus) := by
  rw [planOf, publicCount_append, publicCount_changeOutputs, Nat.add_zero]

theorem length_etherChange (st : Stages) :
    st.etherChange.length = if st.ether.surplus = 0 then 0 else 1 := by
  rw [Stages.etherChange]
  split <;> rfl

theorem Reaches.returnsEther_iff (h : b.Reaches salt st) :
    b.ReturnsEther (b.planOf salt st) ↔ st.ether.surplus ≠ 0 := by
  have hchange : ((b.planOf salt st).outflow.drop b.requests.length).map Outflow.asset =
      st.surplus ++ st.etherChange := by
    rw [planOf, tokenOutflow, List.append_assoc, List.drop_left, List.map_append,
      map_asset_changeOutputs, map_asset_changeOutputs]
  have hreturns : b.ReturnsEther (b.planOf salt st) ↔
      ∃ a ∈ st.surplus ++ st.etherChange, a.isEtherOnly = true := by
    rw [← hchange]
    constructor
    · rintro ⟨o, ho, honly⟩
      exact ⟨o.asset, List.mem_map_of_mem ho, honly⟩
    · rintro ⟨a, ha, honly⟩
      obtain ⟨o, ho, rfl⟩ := List.mem_map.mp ha
      exact ⟨o, ho, honly⟩
  rw [hreturns, Stages.etherChange]
  constructor
  · rintro ⟨a, ha, honly⟩ hzero
    -- without change of ether all that is left is token surplus
    rw [if_pos hzero, List.append_nil] at ha
    exact absurd honly (by simp [isEtherOnly_of_mem_tokenSurplus h.surplus a ha])
  · intro hne
    rw [if_neg hne]
    exact ⟨.ether st.ether.surplus, List.mem_append_right _ List.mem_cons_self, rfl⟩

/-! ### The fee -/

/-- The fee is the rate times the size at the counts of the plan, where an output is reserved if no
change of ether was added. -/
theorem Reaches.fee_eq (h : b.Reaches salt st) :
    (b.planOf salt st).fee.toNat = b.rate.toNat *
      b.estimate (b.planOf salt st).inflow.length
        ((b.planOf salt st).outflow.length + if b.ReturnsEther (b.planOf salt st) then 0 else 1)
        (publicCount (b.planOf salt st).outflow) (b.planOf salt st).swap.isSome false := by
  obtain ⟨p, hp, hfee, -⟩ := (coverEther_ok h.ether).priced
  obtain ⟨hprice, -⟩ := priceOf_eq_ok_iff.mp hp
  -- the price is that of the last count of inputs, when the reserved output was still open
  have hinflow : (b.planOf salt st).inflow.length =
      st.tokens.chosen.length + st.ether.chosen.length := List.length_append
  have houtflow : ((b.planOf salt st).outflow.length +
      if b.ReturnsEther (b.planOf salt st) then 0 else 1) =
      (b.tokenOutflow salt st.surplus).length + 1 := by
    rw [length_outflow_planOf, length_etherChange]
    by_cases hzero : st.ether.surplus = 0
    · rw [if_pos hzero, if_neg (mt h.returnsEther_iff.mp (not_not_intro hzero))]
    · rw [if_neg hzero, if_pos (h.returnsEther_iff.mpr hzero)]
  rw [houtflow, hinflow, publicCount_planOf]
  exact (congrArg Amount.toNat hfee).trans hprice

end Stages

variable {b : Builder} {salt : Nat → Felt} {plan : Plan} {inflow : List Spend}
  {proof : Groth16Proof} {memo : Option Memo} {tx : Transaction}

theorem publicCount_map_ofOutflow (os : List Outflow) :
    (os.map OutflowView.ofOutflow).countP (fun o => o.kind.isPublic) = publicCount os :=
  List.countP_map

/-- The fee of a plan built at the size on the wire is the rate times the bytes of any transaction
made of the plan, less those of its memo, with 33 more for the output reserved if no change of ether
was added.  Change stands behind the requests. -/
theorem fee_eq_of_build (hsize : b.estimate = wireSize) (hbuild : b.build salt = .ok plan)
    (hinflow : inflow.length = plan.inflow.length)
    (hmake : Transaction.make? inflow (plan.outflow.map OutflowView.ofOutflow) plan.fee proof
      plan.swap memo = .ok tx) :
    b.requests <+: plan.outflow ∧ tx.memoLength ≤ tx.encode.length ∧
      plan.fee.toNat = b.rate.toNat *
        (tx.encode.length - tx.memoLength + if b.ReturnsEther plan then 0 else 33) := by
  rw [build_eq_draft] at hbuild
  obtain ⟨st, hst, rfl⟩ := draft_eq_ok_iff.mp hbuild
  obtain ⟨hwell, rfl⟩ := Transaction.make?_eq_ok_iff.mp hmake
  have hrequests : b.requests <+: (b.planOf salt st).outflow := by
    rw [planOf, tokenOutflow, List.append_assoc]
    exact List.prefix_append _ _
  rw [Transaction.length_encode hwell.consistent, Transaction.size, Nat.add_sub_cancel, hst.fee_eq,
    hsize]
  refine ⟨hrequests, Nat.le_add_left _ _, congrArg _ ?_⟩
  simp only [Transaction.publicCount, publicCount_map_ofOutflow, hinflow, List.length_map, wireSize,
    estimateSize]
  -- the output reserved takes the bytes of a plain one
  split <;> omega

/-- A builder at ten for each byte whose one note covers its request and the fee to the unit. -/
def exactBuilder : Builder where
  changeTo := .null
  rate := 10
  estimate := wireSize
  swap := none
  notes := [looseNote (.ether 4310)]
  requests := [plainOutput .null 1 (.ether 100)]

/-- The choices made for `exactBuilder`: nothing is left over. -/
def exactStages : Stages where
  asked := ⟨100, [], []⟩
  tokens := ⟨[], [looseNote (.ether 4310)]⟩
  surplus := []
  externalFee := 0
  gathered := 0
  ether := ⟨[looseNote (.ether 4310)], 4210, 0⟩

theorem exactBuilder_reaches : exactBuilder.Reaches (fun _ => 0) exactStages := by
  have hpool : etherPool exactStages.tokens.left = [looseNote (.ether 4310)] :=
    congrArg List.reverse (List.mergeSort_of_pairwise (by decide))
  refine ⟨rfl, rfl, rfl, rfl, rfl, ?_⟩
  rw [hpool]
  rfl

/-- Without change of ether 33 bytes more are charged than are written beside the memo. -/
theorem fee_eq_of_build_exact :
    ∃ plan tx, exactBuilder.build (fun _ => 0) = .ok plan ∧
      Transaction.make? [⟨3, 5⟩] (plan.outflow.map OutflowView.ofOutflow) plan.fee
        ⟨1, 2, 3, 4, 5, 6, 7, 8⟩ plan.swap (some (.note (.ofListPadded _ []))) = .ok tx ∧
      ¬ exactBuilder.ReturnsEther plan ∧ plan.fee = 4210 ∧
      plan.fee.toNat = exactBuilder.rate.toNat * (tx.encode.length - tx.memoLength + 33) := by
  let plan := exactBuilder.planOf (fun _ => 0) exactStages
  have hbuild : exactBuilder.build (fun _ => 0) = .ok plan :=
    (build_eq_draft _ _).trans (draft_eq_ok_iff.mpr ⟨_, exactBuilder_reaches, rfl⟩)
  have hmake : Transaction.make? [⟨3, 5⟩] (plan.outflow.map OutflowView.ofOutflow) plan.fee
      ⟨1, 2, 3, 4, 5, 6, 7, 8⟩ plan.swap (some (.note (.ofListPadded _ []))) = .ok _ :=
    Transaction.make?_views (Nat.le_of_ble_eq_true rfl) (Nat.le_of_ble_eq_true rfl)
  have hchange : ¬ exactBuilder.ReturnsEther plan :=
    mt exactBuilder_reaches.returnsEther_iff.mp (not_not_intro rfl)
  obtain ⟨-, -, hfee⟩ := fee_eq_of_build rfl hbuild rfl hmake
  rw [if_neg hchange] at hfee
  exact ⟨plan, _, hbuild, hmake, hchange, rfl, hfee⟩

end Builder

end ShieldedWallet
