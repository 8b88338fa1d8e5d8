/-
The stages of building a plan.

Building goes through six stages, each of which needs the ones before it: the
totals of the requests, the token notes chosen, the token surplus, the fees on
the base ledger, the ether of the token notes, and the ether-only notes chosen
with the fee.

* `Builder.Stages`, `Builder.Reaches` — the outcomes of the stages, and what
  each of them is;
* `Builder.draft_eq_ok_iff` — a draft is made exactly if all stages are
  reached, and is then put together from their outcomes;
* `Builder.coverEther_ok` — the ether-only notes chosen are a run from the
  front of the pool, cover the price at their count, and no shorter run covers
  the price at its count;
* `Builder.tokenSurplus_ok` — the token surplus is what notes chosen hold beyond
  the requests.

Design notes: all that is said of built plans goes through the stages, so a
stage can change with the lemmas about it alone.
-/
import ShieldedWallet.Proofs.Balance
import ShieldedWallet.Proofs.Selection

namespace ShieldedWallet.Builder

/-! ### Ether -/

theorem priceOf_eq_ok_iff {rate sentEther externalFee : Amount} {size : Nat} {p : Price} :
    priceOf rate sentEther externalFee size = .ok p ↔
      p.fee.toNat = rate.toNat * size ∧
        p.required.toNat = sentEther.toNat + p.fee.toNat + externalFee.toNat := by
  rw [priceOf]
  constructor
  · intro h
    cases hfee : rate.mul? size with
    | none => simp [hfee] at h
    | some fee =>
      cases hspent : Plan.spentEther? sentEther fee externalFee with
      | none => simp [hfee, hspent] at h
      | some required =>
        simp only [hfee, hspent, Except.ok.injEq] at h
        subst h
        exact ⟨Amount.mul?_eq_some_iff.mp hfee, spentEther?_eq_some_iff.mp hspent⟩
  · rintro ⟨hfee, hrequired⟩
    simp only [Amount.mul?_eq_some_iff.mpr hfee, spentEther?_eq_some_iff.mpr hrequired]

/-- A choice of ether-only notes from a pool, beside inputs whose ether is given: a run from the
front that covers the price at its count, when no shorter run does so at its own. -/
structure EtherChoice.Covers (c : EtherChoice) (price : Nat → Except BuildError Price)
    (pool : List Utxo) (inputs : Nat) (gathered : Amount) : Prop where
  isPrefix : c.chosen <+: pool
  priced : ∃ p, price (inputs + c.chosen.length) = .ok p ∧ c.fee = p.fee ∧
    gathered.toNat + etherTotal (assetsOf c.chosen) = p.required.toNat + c.surplus.toNat
  fits : gathered.toNat + etherTotal (assetsOf c.chosen) < amountBound
  shorter : ∀ k < c.chosen.length, ∃ p, price (inputs + k) = .ok p ∧
    gathered.toNat + etherTotal (assetsOf (c.chosen.take k)) < p.required.toNat

section Cover

variable {price : Nat → Except BuildError Price} {pool : List Utxo} {inputs : Nat}
  {gathered : Amount} {p : Price}

/-- A note adds the same to the total as part of a run and as part of what is gathered. -/
theorem gathered_add_etherTotal_cons {u : Utxo} {next : Amount}
    (hnext : gathered.add? u.asset.eth = some next) (us : List Utxo) :
    gathered.toNat + etherTotal (assetsOf (u :: us)) =
      next.toNat + etherTotal (assetsOf us) := by
  rw [assetsOf_cons, etherTotal_cons, Amount.add?_eq_some_iff.mp hnext, Nat.add_assoc]

/-- Where the price is covered nothing is taken from the pool. -/
theorem EtherChoice.Covers.stop (hp : price inputs = .ok p) (hle : p.required ≤ gathered) :
    EtherChoice.Covers ⟨[], p.fee, gathered.monus p.required⟩ price pool inputs gathered := by
  rw [Amount.le_def] at hle
  refine ⟨List.nil_prefix, ⟨p, hp, rfl, ?_⟩, gathered.isLt, fun k hk => ?_⟩
  · rw [Amount.toNat_monus, assetsOf_nil, etherTotal_nil]
    omega
  · exact absurd hk (Nat.not_lt_zero k)

theorem EtherChoice.Covers.cons {u : Utxo} {next : Amount} {c : EtherChoice}
    (hp : price inputs = .ok p) (hlt : gathered < p.required)
    (hnext : gathered.add? u.asset.eth = some next)
    (hc : c.Covers price pool (inputs + 1) next) :
    EtherChoice.Covers { c with chosen := u :: c.chosen } price (u :: pool) inputs gathered := by
  have hether := gathered_add_etherTotal_cons hnext
  -- the rest of the run is counted from one input more
  have hcount : ∀ k, inputs + (k + 1) = inputs + 1 + k := by omega
  obtain ⟨hfront, ⟨q, hq, hfee, hcover⟩, hfits, hshorter⟩ := hc
  refine ⟨List.cons_prefix_cons.mpr ⟨rfl, hfront⟩, ⟨q, ?_, hfee, ?_⟩, ?_, fun k hk => ?_⟩
  · rw [List.length_cons, hcount]
    exact hq
  · rw [hether, hcover]
  · rw [hether]
    exact hfits
  · cases k with
    | zero => exact ⟨p, hp, hlt⟩
    | succ k =>
      obtain ⟨r, hr, hk⟩ := hshorter k (by simpa using hk)
      refine ⟨r, by rw [hcount]; exact hr, ?_⟩
      rw [List.take_succ_cons, hether]
      exact hk

theorem coverEther_ok {c : EtherChoice} (h : coverEther price pool inputs gathered = .ok c) :
    c.Covers price pool inputs gathered := by
  induction pool generalizing inputs gathered c with
  | nil =>
    obtain ⟨p, hp, h⟩ := Except.bind_eq_ok_iff.mp h
    split at h
    case isTrue hle =>
      cases h
      exact .stop hp hle
    case isFalse => simp at h
  | cons u pool ih =>
    obtain ⟨p, hp, h⟩ := Except.bind_eq_ok_iff.mp h
    split at h
    case isTrue hle =>
      cases h
      exact .stop hp hle
    case isFalse hgt =>
      cases hnext : gathered.add? u.asset.eth with
      | none => simp [hnext] at h
      | some next =>
        simp only [hnext] at h
        obtain ⟨rest, hrest, h⟩ := Except.bind_eq_ok_iff.mp h
        cases h
        exact .cons hp (Nat.lt_of_not_le hgt) hnext (ih hrest)

end Cover

theorem mem_etherPool {available : List Utxo} {u : Utxo} :
    u ∈ etherPool available ↔ u ∈ available ∧ u.asset.isEtherOnly = true := by
  rw [etherPool, List.mem_reverse, List.mem_mergeSort, List.mem_filter]

/-! ### Token surplus -/

theorem toOption_fungible_eq_some_iff {token : LedgerAddress} {amount eth : Amount} {a : Asset} :
    (Asset.fungible token amount eth).toOption = some a ↔
      amount.toNat ≠ 0 ∧ a = ⟨eth, token, amount, 0⟩ := by
  rw [ne_eq, ← Amount.eq_zero_iff, Asset.fungible]
  split
  case isTrue h => simp [Except.toOption, h]
  case isFalse h => simp [Except.toOption, h, eq_comm]

/-- The surplus of an entry of the notes picked. -/
def entrySurplus (asked : Holdings) (e : LedgerAddress × Amount) : Option Asset :=
  (Asset.fungible e.1 (e.2.monus (asked.amountOf e.1)) 0).toOption

theorem fungibleSurplus_eq (picked asked : Holdings) :
    fungibleSurplus picked asked = picked.fungible.filterMap (entrySurplus asked) := rfl

theorem fungibleTotal_entrySurplus (asked : Holdings) (e : LedgerAddress × Amount)
    (token : LedgerAddress) :
    fungibleTotal token (entrySurplus asked e).toList =
      if e.1 = token then e.2.toNat - (asked.amountOf token).toNat else 0 := by
  obtain ⟨t, amount⟩ := e
  cases hs : entrySurplus asked (t, amount) with
  | none =>
    -- only a difference of zero makes no asset
    have hzero : (amount.monus (asked.amountOf t)).toNat = 0 := by
      refine Decidable.byContradiction fun hne => ?_
      rw [entrySurplus, toOption_fungible_eq_some_iff.mpr ⟨hne, rfl⟩] at hs
      cases hs
    rw [Amount.toNat_monus] at hzero
    split
    case isTrue heq =>
      subst heq
      exact hzero.symm
    case isFalse => rfl
  | some a =>
    obtain ⟨hne, rfl⟩ := toOption_fungible_eq_some_iff.mp hs
    have hfungible : ∀ x : LedgerAddress,
        Asset.isFungibleOf ⟨0, t, amount.monus (asked.amountOf t), 0⟩ x = decide (t = x) := by
      intro x
      rw [Asset.isFungibleOf, Asset.isFungible_of_amount hne, Bool.true_and]
    rw [Option.toList_some, fungibleTotal_cons, hfungible, fungibleTotal_nil, Nat.add_zero]
    by_cases heq : t = token
    · subst heq
      simp
    · simp [heq]

/-- The surplus of a map of amounts holds of each token what the map has beyond the request. -/
theorem fungibleTotal_filterMap_entrySurplus (asked : Holdings) {m : TokenMap Amount}
    (hm : m.Ascending) (token : LedgerAddress) :
    fungibleTotal token (m.filterMap (entrySurplus asked)) =
      ((m.get? token).getD 0).toNat - (asked.amountOf token).toNat := by
  induction m with
  | nil => exact (Nat.zero_sub _).symm
  | cons e rest ih =>
    obtain ⟨t, amount⟩ := e
    have hcons : ((t, amount) :: rest).filterMap (entrySurplus asked) =
        (entrySurplus asked (t, amount)).toList ++ rest.filterMap (entrySurplus asked) := by
      rw [List.filterMap_cons]
      cases entrySurplus asked (t, amount) <;> rfl
    rw [hcons, fungibleTotal_append, fungibleTotal_entrySurplus,
      ih (TokenMap.ascending_cons_iff.mp hm).2, TokenMap.get?]
    by_cases heq : t = token
    · subst heq
      have hfresh : t ∉ TokenMap.keys rest := fun hmem => hm.ne_of_mem_keys hmem rfl
      simp [TokenMap.get?_eq_none hfresh]
    · simp [heq]

/-- Of notes that cover a request no single token is left over, so the surplus is that of the
fungible tokens. -/
theorem tokenSurplus_fungible {chosen : List Utxo} {asked : Holdings} {surplus : List Asset}
    (hcover : Covers chosen asked) (h : tokenSurplus chosen asked = .ok surplus) :
    ∃ picked, Holdings.Tallies picked (assetsOf chosen) ∧
      surplus = picked.fungible.filterMap (entrySurplus asked) := by
  obtain ⟨picked, hpicked, h⟩ := Except.bind_eq_ok_iff.mp h
  cases h
  have hof : Holdings.ofAssets (assetsOf chosen) = .ok picked :=
    (Holdings.ofNotes_map Utxo.note chosen).symm.trans (Except.mapError_eq_ok_iff.mp hpicked)
  have ht := Holdings.tallies_of_ofAssets hof
  -- the ids picked are the ids asked for, so none is left over
  have hsingle : singleSurplus picked asked = [] := by
    refine List.flatMap_eq_nil_iff.mpr fun e he => ?_
    have hids : e.2 = asked.idsOf e.1 := by
      rw [← hcover.ids, ← ht.idsOf, Holdings.idsOf, ht.single_ascending.get?_of_mem he,
        Option.getD_some]
    have hnone : (e.2.filter fun id => id ∉ asked.idsOf e.1) = [] :=
      List.filter_eq_nil_iff.mpr fun id hid => by simpa [← hids] using hid
    show (e.2.filter fun id => id ∉ asked.idsOf e.1).filterMap _ = []
    rw [hnone, List.filterMap_nil]
  refine ⟨picked, ht, ?_⟩
  rw [hsingle, List.append_nil, fungibleSurplus_eq]

/-- What is left over of notes that cover a request is, of each fungible token, what they hold
beyond the request; no ether and no single token is left over. -/
theorem tokenSurplus_ok {chosen : List Utxo} {asked : Holdings} {surplus : List Asset}
    (hcover : Covers chosen asked) (h : tokenSurplus chosen asked = .ok surplus) :
    Holdings.Fits (assetsOf chosen) ∧ etherTotal surplus = 0 ∧
      (∀ token, fungibleTotal token surplus =
        fungibleTotal token (assetsOf chosen) - (asked.amountOf token).toNat) ∧
      ∀ token, singleIds token surplus = [] := by
  obtain ⟨picked, ht, rfl⟩ := tokenSurplus_fungible hcover h
  have hshape : ∀ a ∈ picked.fungible.filterMap (entrySurplus asked),
      a.eth = 0 ∧ a.isFungible = true := by
    intro a ha
    obtain ⟨e, -, he⟩ := List.mem_filterMap.mp ha
    obtain ⟨hne, rfl⟩ := toOption_fungible_eq_some_iff.mp he
    exact ⟨rfl, Asset.isFungible_of_amount hne⟩
  refine ⟨ht.fits, ?_, fun token => ?_, fun token => ?_⟩
  · exact etherTotal_eq_zero fun a ha => (hshape a ha).1
  · rw [fungibleTotal_filterMap_entrySurplus asked ht.fungible_ascending, ← ht.amountOf]
    rfl
  · exact singleIds_eq_nil fun a ha => Asset.isSingleOf_eq_false (hshape a ha).2

/-! ### Stages -/

/-- The outcomes of the stages of building: the totals of the requests, the token notes chosen, the
token surplus, the fees on the base ledger, the ether of the token notes, and the ether-only notes
chosen with the fee. -/
structure Stages where
  asked : Holdings
  tokens : Selection
  surplus : List Asset
  externalFee : Amount
  gathered : Amount
  ether : EtherChoice

/-- The outputs before any change of ether. -/
def tokenOutflow (b : Builder) (salt : Nat → Felt) (surplus : List Asset) : List Outflow :=
  b.requests ++ changeOutputs b.changeTo salt 0 surplus

/-- The price of a plan by its count of inputs, with one output reserved. -/
def priceAt (b : Builder) (sentEther externalFee : Amount) (outflow : List Outflow)
    (inputs : Nat) : Except BuildError Price :=
  priceOf b.rate sentEther externalFee
    (b.estimate inputs (outflow.length + 1) (publicCount outflow) b.swap.isSome false)

/-- The stages end with the given outcomes. -/
structure Reaches (b : Builder) (salt : Nat → Felt) (st : Stages) : Prop where
  asked : Holdings.ofNotes (b.requests.map Outflow.note) = .ok st.asked
  tokens : selectTokens b.notes st.asked = .ok st.tokens
  surplus : tokenSurplus st.tokens.chosen st.asked = .ok st.surplus
  externalFee : externalFees? (b.tokenOutflow salt st.surplus) = some st.externalFee
  gathered : Amount.sum? (st.tokens.chosen.map fun u => u.asset.eth) = some st.gathered
  ether : coverEther (b.priceAt st.asked.eth st.externalFee (b.tokenOutflow salt st.surplus))
    (etherPool st.tokens.left) st.tokens.chosen.length st.gathered = .ok st.ether

/-- The change of ether: none if nothing is left over. -/
def Stages.etherChange (st : Stages) : List Asset :=
  if st.ether.surplus = 0 then [] else [.ether st.ether.surplus]

/-- The plan put together from the outcomes of the stages. -/
def planOf (b : Builder) (salt : Nat → Felt) (st : Stages) : Plan where
  inflow := st.tokens.chosen ++ st.ether.chosen
  outflow := b.tokenOutflow salt st.surplus ++
    changeOutputs b.changeTo salt st.surplus.length st.etherChange
  swap := b.swap
  fee := st.ether.fee

/-- A draft is made exactly if all stages are reached, and then from their outcomes. -/
theorem draft_eq_ok_iff {b : Builder} {salt : Nat → Felt} {plan : Plan} :
    b.draft salt = .ok plan ↔ ∃ st, b.Reaches salt st ∧ plan = b.planOf salt st := by
  constructor
  · intro h
    obtain ⟨asked, hasked, h⟩ := Except.bind_eq_ok_iff.mp h
    obtain ⟨tokens, htokens, h⟩ := Except.bind_eq_ok_iff.mp h
    obtain ⟨surplus, hsurplus, h⟩ := Except.bind_eq_ok_iff.mp h
    cases hfees : externalFees? (b.tokenOutflow salt surplus) with
    | none => rw [tokenOutflow] at hfees; simp [hfees] at h
    | some externalFee =>
      cases hgathered : Amount.sum? (tokens.chosen.map fun u => u.asset.eth) with
      | none => rw [tokenOutflow] at hfees; simp [hfees, hgathered] at h
      | some gathered =>
        rw [tokenOutflow] at hfees
        simp only [hfees, hgathered] at h
        obtain ⟨ether, hether, h⟩ := Except.bind_eq_ok_iff.mp h
        exact ⟨⟨asked, tokens, surplus, externalFee, gathered, ether⟩,
          ⟨Except.mapError_eq_ok_iff.mp hasked, htokens, hsurplus, hfees, hgathered, hether⟩,
          (Except.ok.inj h).symm⟩
  · rintro ⟨⟨asked, tokens, surplus, externalFee, gathered, ether⟩, h, rfl⟩
    have hfees := h.externalFee
    rw [tokenOutflow] at hfees
    refine Except.bind_eq_ok_iff.mpr ⟨asked, Except.mapError_eq_ok_iff.mpr h.asked, ?_⟩
    refine Except.bind_eq_ok_iff.mpr ⟨tokens, h.tokens, ?_⟩
    refine Except.bind_eq_ok_iff.mpr ⟨surplus, h.surplus, ?_⟩
    simp only [hfees, h.gathered]
    exact Except.bind_eq_ok_iff.mpr ⟨ether, h.ether, rfl⟩

end ShieldedWallet.Builder
