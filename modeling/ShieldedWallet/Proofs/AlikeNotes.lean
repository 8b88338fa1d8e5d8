/-
Notes that offer the same tokens.

The choice of token notes reads the amounts and the ids of the notes at hand,
fungible tokens in ascending order and single tokens by id.  Two lists of notes
that agree in these are chosen from alike: with the same success, and with the
same assets in the notes chosen.  All that follows up to the choice of ether goes
by these assets.

* `OffersAlike` — lists of notes that offer the same tokens;
* `Builder.selectFungibles_of_alike`, `Builder.selectAllSingles_of_perm` — the two
  kinds of tokens apart;
* `Builder.selectTokens_of_alike` — both together;
* `Builder.Prepares.of_alike` — the outcomes of all stages before ether is chosen.

Design notes: what is left over stands in an order that the notes chosen depend
on, so lists left over are compared only in what they offer of tokens not yet
asked for.
-/
import ShieldedWallet.Proofs.Inputs
import ShieldedWallet.Proofs.Payment
import ShieldedWallet.Proofs.SingleSelection

namespace ShieldedWallet

/-- The notes offer the same tokens: of each fungible token the same assets in ascending order of
amounts, and the same single tokens, where a contract and an id settle the asset. -/
structure OffersAlike (us vs : List Utxo) : Prop where
  coins : ∀ token, assetsOf (fungibleCandidates us token) = assetsOf (fungibleCandidates vs token)
  singles : ((assetsOf us).filter Asset.isSingle).Perm ((assetsOf vs).filter Asset.isSingle)
  settled : ∀ a ∈ (assetsOf us).filter Asset.isSingle, ∀ b ∈ (assetsOf us).filter Asset.isSingle,
    a.token = b.token → a.tokenId = b.tokenId → a = b

theorem OffersAlike.singleIds_perm {us vs : List Utxo} (h : OffersAlike us vs)
    (token : LedgerAddress) :
    (singleIds token (assetsOf us)).Perm (singleIds token (assetsOf vs)) := by
  have hfilter (assets : List Asset) :
      singleIds token (assets.filter Asset.isSingle) = singleIds token assets := by
    rw [singleIds, List.filter_filter, singleIds]
    refine congrArg _ (List.filter_congr fun a _ => ?_)
    rw [Asset.isSingleOf, Bool.and_right_comm, Bool.and_self]
  rw [← hfilter (assetsOf us), ← hfilter (assetsOf vs)]
  exact ShieldedWallet.singleIds_perm h.singles token

/-! ### Fungible tokens -/

section Fungible

variable {asked gathered total : Amount} {us vs run behind : List Utxo} {token : LedgerAddress}
  {s : Selection}

/-- The walk along the candidates goes by their assets. -/
theorem takeUntil_of_assets (hassets : assetsOf us = assetsOf vs)
    (h : takeUntil asked gathered us = .ok (run, total, behind)) :
    ∃ run' behind', takeUntil asked gathered vs = .ok (run', total, behind') ∧
      assetsOf run' = assetsOf run := by
  induction us generalizing gathered vs run with
  | nil =>
    obtain rfl : vs = [] := List.map_eq_nil_iff.mp hassets.symm
    cases h
    exact ⟨[], [], rfl, rfl⟩
  | cons u us ih =>
    cases vs with
    | nil => cases hassets
    | cons v vs =>
      obtain ⟨hhead, htail⟩ := List.cons.inj hassets
      have hamount : v.asset.amount = u.asset.amount := congrArg Asset.amount hhead.symm
      rw [takeUntil] at h ⊢
      rw [hamount]
      by_cases hle : asked ≤ gathered
      · rw [if_pos hle] at h ⊢
        cases h
        exact ⟨_, _, rfl, rfl⟩
      · rw [if_neg hle] at h ⊢
        cases hnext : gathered.add? u.asset.amount with
        | none =>
          rw [hnext] at h
          cases h
        | some next =>
          rw [hnext] at h
          obtain ⟨⟨rest, reached, left⟩, hrest, h⟩ := Except.bind_eq_ok_iff.mp h
          cases h
          obtain ⟨rest', left', hrest', hsame⟩ := ih htail hrest
          refine ⟨v :: rest', left', Except.bind_eq_ok_iff.mpr ⟨_, hrest', rfl⟩, ?_⟩
          rw [assetsOf_cons, assetsOf_cons, hsame, hhead]

theorem selectFungible_of_assets
    (hassets : assetsOf (fungibleCandidates us token) = assetsOf (fungibleCandidates vs token))
    (h : selectFungible us token asked = .ok s) :
    ∃ s', selectFungible vs token asked = .ok s' ∧ assetsOf s'.chosen = assetsOf s.chosen := by
  obtain ⟨total, unused, hrun, hreach, -⟩ := selectFungible_eq_ok_iff.mp h
  obtain ⟨run', unused', hrun', hsame⟩ := takeUntil_of_assets hassets hrun
  exact ⟨⟨run', _⟩, selectFungible_eq_ok_iff.mpr ⟨total, unused', hrun', hreach, rfl⟩, hsame⟩

/-- A choice for one token leaves the candidates of the others as they are. -/
theorem fungibleCandidates_left {other : LedgerAddress}
    (h : selectFungible us token asked = .ok s) (hne : token ≠ other) :
    fungibleCandidates s.left other = fungibleCandidates us other := by
  obtain ⟨total, unused, hrun, -, hleft⟩ := selectFungible_eq_ok_iff.mp h
  obtain ⟨hsplit, -⟩ := takeUntil_ok hrun
  have hnot {u : Utxo} (hu : holdsFungible token u = true) : holdsFungible other u = false := by
    rw [← Bool.not_eq_true, holdsFungible_iff, (holdsFungible_iff.mp hu).2]
    exact fun h => hne h.2
  -- the unused notes hold the token chosen, and the others are those that do not
  have hunused : unused.filter (holdsFungible other) = [] := by
    refine List.filter_eq_nil_iff.mpr fun u hu => ?_
    have hmem : u ∈ fungibleCandidates us token := hsplit ▸ List.mem_append_right s.chosen hu
    rw [hnot (List.mem_filter.mp (List.mem_mergeSort.mp hmem)).2]
    exact Bool.false_ne_true
  have hothers : (us.filter fun u => !holdsFungible token u).filter (holdsFungible other) =
      us.filter (holdsFungible other) := by
    rw [List.filter_filter]
    refine List.filter_congr fun u _ => ?_
    cases hu : holdsFungible token u with
    | false => exact Bool.and_true _
    | true => rw [hnot hu, Bool.false_and]
  rw [fungibleCandidates, fungibleCandidates, hleft, List.filter_append, hunused, hothers,
    List.append_nil]

end Fungible

namespace Builder

section Tokens

variable {us vs : List Utxo} {s : Selection}

theorem selectFungibles_of_alike {asked : TokenMap Amount} (hasc : asked.Ascending)
    (halike : ∀ token ∈ asked.keys,
      assetsOf (fungibleCandidates us token) = assetsOf (fungibleCandidates vs token))
    (h : selectFungibles us asked = .ok s) :
    ∃ s', selectFungibles vs asked = .ok s' ∧ assetsOf s'.chosen = assetsOf s.chosen := by
  induction asked generalizing us vs s with
  | nil =>
    cases h
    exact ⟨_, rfl, rfl⟩
  | cons e rest ih =>
    obtain ⟨token, amount⟩ := e
    obtain ⟨hhead, htail⟩ := List.forall_mem_cons.mp halike
    obtain ⟨first, others, hfirst, hothers, rfl⟩ := selectFungibles_cons_eq_ok_iff.mp h
    obtain ⟨first', hfirst', hsame⟩ := selectFungible_of_assets hhead hfirst
    have hlater : ∀ other ∈ TokenMap.keys rest, assetsOf (fungibleCandidates first.left other) =
        assetsOf (fungibleCandidates first'.left other) := by
      intro other hother
      have hne : token ≠ other := hasc.ne_of_mem_keys hother
      rw [fungibleCandidates_left hfirst hne, fungibleCandidates_left hfirst' hne]
      exact htail other hother
    obtain ⟨others', hothers', hsame'⟩ := ih (TokenMap.ascending_cons_iff.mp hasc).2 hlater hothers
    refine ⟨⟨first'.chosen ++ others'.chosen, others'.left⟩,
      selectFungibles_cons_eq_ok_iff.mpr ⟨first', others', hfirst', hothers', rfl⟩, ?_⟩
    rw [assetsOf_append, assetsOf_append, hsame, hsame']

/-! ### Single tokens -/

/-- What is chosen of fungible tokens leaves the ids of single tokens as they are. -/
theorem singleIds_left_of_selectFungibles {asked : TokenMap Amount}
    (h : selectFungibles us asked = .ok s) (token : LedgerAddress) :
    (singleIds token (assetsOf s.left)).Perm (singleIds token (assetsOf us)) := by
  obtain ⟨hparts, hholds, -⟩ := selectFungibles_ok h
  have hperm := ShieldedWallet.singleIds_perm (hparts.map Utxo.asset) token
  have hnone : singleIds token (assetsOf s.chosen) = [] := singleIds_eq_nil fun a ha => by
    obtain ⟨u, hu, rfl⟩ := mem_assetsOf.mp ha
    obtain ⟨t, -, hu⟩ := hholds u hu
    exact Asset.isSingleOf_eq_false (holdsFungible_iff.mp hu).1
  rwa [← assetsOf, ← assetsOf, assetsOf_append, singleIds_append, hnone, List.nil_append] at hperm

/-- Whether ids can be taken depends neither on the order in which they are asked for nor on that of
the notes. -/
theorem selectAllSingles_of_perm {asked asked' : TokenMap (List Amount)} (hasc : asked.Ascending)
    (hasc' : asked'.Ascending)
    (hids : ∀ token, ((asked.get? token).getD []).Perm ((asked'.get? token).getD []))
    (hheld : ∀ token, (singleIds token (assetsOf us)).Perm (singleIds token (assetsOf vs)))
    (h : selectAllSingles us asked = .ok s) : ∃ s', selectAllSingles vs asked' = .ok s' := by
  have hentries := (exists_selectAllSingles_iff hasc).mp ⟨s, h⟩
  have hall (token : LedgerAddress) :
      ((asked.get? token).getD []).Subperm (singleIds token (assetsOf us)) := by
    cases hget : asked.get? token with
    | none => exact List.nil_subperm
    | some ids => exact hentries _ (TokenMap.mem_of_get? hget)
  refine (exists_selectAllSingles_iff hasc').mpr ?_
  rintro ⟨token, ids⟩ he
  have hsame := hids token
  rw [hasc'.get?_of_mem he, Option.getD_some] at hsame
  exact hsame.subperm_right.mp ((hheld token).subperm_left.mp (hall token))

/-- Notes of single tokens, of the same ids under each contract, hold the same assets where contract
and id settle the asset. -/
theorem assetsOf_perm_of_singleIds {chosen chosen' : List Utxo} {held : List Asset}
    (hsettled : ∀ a ∈ held, ∀ b ∈ held, a.token = b.token → a.tokenId = b.tokenId → a = b)
    (hsingle : ∀ u ∈ chosen, u.asset.isSingle = true)
    (hsingle' : ∀ u ∈ chosen', u.asset.isSingle = true)
    (hheld : ∀ u ∈ chosen, u.asset ∈ held) (hheld' : ∀ u ∈ chosen', u.asset ∈ held)
    (hids : ∀ token, (singleIds token (assetsOf chosen)).Perm
      (singleIds token (assetsOf chosen'))) :
    (assetsOf chosen).Perm (assetsOf chosen') := by
  have hpositions := singlePositions_perm hids
  have hall {notes : List Utxo} (h : ∀ u ∈ notes, u.asset.isSingle = true) :
      (assetsOf notes).filter Asset.isSingle = assetsOf notes :=
    List.filter_eq_self.mpr fun a ha => by
      obtain ⟨u, hu, rfl⟩ := mem_assetsOf.mp ha
      exact h u hu
  rw [singlePositions, singlePositions, hall hsingle, hall hsingle'] at hpositions
  refine List.perm_of_map_perm (fun a ha b hb hab => ?_) hpositions
  obtain ⟨u, hu, rfl⟩ := mem_assetsOf.mp ha
  obtain ⟨v, hv, rfl⟩ := mem_assetsOf.mp hb
  obtain ⟨htoken, hid⟩ := Prod.mk.inj hab
  exact hsettled _ (hheld u hu) _ (hheld' v hv) htoken hid

/-! ### All tokens -/

/-- From notes that offer the same tokens, token notes of the same assets are chosen for requests in
another order. -/
theorem selectTokens_of_alike {asked asked' : Holdings} {requested requested' : List Asset}
    (halike : OffersAlike us vs) (ht : asked.Tallies requested) (ht' : asked'.Tallies requested')
    (hperm : requested.Perm requested') (h : selectTokens us asked = .ok s) :
    ∃ s', selectTokens vs asked' = .ok s' ∧ (assetsOf s'.chosen).Perm (assetsOf s.chosen) := by
  obtain ⟨-, hfungible, hids⟩ := ht.agree ht' hperm
  obtain ⟨coins, singles, hcoins, hsingles, rfl⟩ := selectTokens_eq_ok_iff.mp h
  obtain ⟨coins', hcoins', hsame⟩ :=
    selectFungibles_of_alike ht.fungible_ascending (fun token _ => halike.coins token) hcoins
  have hheld (token : LedgerAddress) : (singleIds token (assetsOf coins.left)).Perm
      (singleIds token (assetsOf coins'.left)) :=
    (singleIds_left_of_selectFungibles hcoins token).trans
      ((halike.singleIds_perm token).trans (singleIds_left_of_selectFungibles hcoins' token).symm)
  obtain ⟨singles', hsingles'⟩ := selectAllSingles_of_perm ht.single_ascending ht'.single_ascending
    hids hheld hsingles
  obtain ⟨hparts, hsingle, hchosen⟩ := selectAllSingles_ok ht.single_ascending hsingles
  obtain ⟨hparts', hsingle', hchosen'⟩ := selectAllSingles_ok ht'.single_ascending hsingles'
  have hmem {notes : List Utxo} {c r : Selection} (hc : c.Parts notes) (hr : r.Parts c.left)
      {u : Utxo} (hu : u ∈ r.chosen) : u ∈ notes :=
    hc.mem_iff.mp (List.mem_append_right _ (hr.mem_iff.mp (List.mem_append_left _ hu)))
  have hassets : (assetsOf singles'.chosen).Perm (assetsOf singles.chosen) := by
    refine (assetsOf_perm_of_singleIds halike.settled hsingle hsingle' (fun u hu => ?_)
      (fun u hu => ?_) fun token => ?_).symm
    · have hu' := hmem (selectFungibles_ok hcoins).1 hparts hu
      exact List.mem_filter.mpr ⟨mem_assetsOf.mpr ⟨u, hu', rfl⟩, hsingle u hu⟩
    · have hu' := hmem (selectFungibles_ok hcoins').1 hparts' hu
      exact halike.singles.mem_iff.mpr
        (List.mem_filter.mpr ⟨mem_assetsOf.mpr ⟨u, hu', rfl⟩, hsingle' u hu⟩)
    · rw [hchosen, hchosen']
      exact hids token
  refine ⟨_, selectTokens_eq_ok_iff.mpr
    ⟨coins', singles', hfungible ▸ hcoins', hsingles', rfl⟩, ?_⟩
  rw [assetsOf_append, assetsOf_append, hsame]
  exact hassets.append_left _

/-- Token notes of the same assets leave the same surplus over the same request. -/
theorem tokenSurplus_of_perm {chosen chosen' : List Utxo} {asked asked' : Holdings}
    {surplus : List Asset} (hcover : Covers chosen asked) (hcover' : Covers chosen' asked')
    (hfungible : asked'.fungible = asked.fungible)
    (hperm : (assetsOf chosen').Perm (assetsOf chosen))
    (h : tokenSurplus chosen asked = .ok surplus) : tokenSurplus chosen' asked' = .ok surplus := by
  obtain ⟨picked, ht, rfl⟩ := tokenSurplus_fungible hcover h
  obtain ⟨picked', hpicked'⟩ := Holdings.exists_ofAssets_iff.mpr (ht.fits.perm hperm.symm)
  have hnotes : Holdings.ofNotes (chosen'.map Utxo.note) = .ok picked' :=
    (Holdings.ofNotes_map Utxo.note chosen').trans hpicked'
  obtain ⟨surplus', hsurplus'⟩ : ∃ surplus', tokenSurplus chosen' asked' = .ok surplus' :=
    ⟨_, Except.bind_eq_ok_iff.mpr ⟨picked', Except.mapError_eq_ok_iff.mpr hnotes, rfl⟩⟩
  obtain ⟨found, hfound, rfl⟩ := tokenSurplus_fungible hcover' hsurplus'
  obtain ⟨-, hsame, -⟩ := ht.agree hfound hperm.symm
  have hentry : entrySurplus asked' = entrySurplus asked := by
    funext e
    rw [entrySurplus, entrySurplus, Holdings.amountOf, Holdings.amountOf, hfungible]
  rw [hsurplus', hsame, hentry]

end Tokens

/-! ### Preparation -/

theorem length_eq_of_assetsOf_perm {us vs : List Utxo} (h : (assetsOf us).Perm (assetsOf vs)) :
    us.length = vs.length := by
  rw [← List.length_map Utxo.asset, ← List.length_map Utxo.asset]
  exact h.length_eq

theorem sum?_eth_eq_some_iff {us : List Utxo} {gathered : Amount} :
    Amount.sum? (us.map fun u => u.asset.eth) = some gathered ↔
      gathered.toNat = etherTotal (assetsOf us) := by
  rw [Amount.sum?_eq_some_iff, List.map_map, etherTotal, assetsOf, List.map_map]
  rfl

/-- Up to the choice of ether it matters only which tokens the notes offer, and not in which order
outputs are asked for. -/
theorem Prepares.of_alike {b b' : Builder} {salt : Nat → Felt} {t : Preparation}
    (halike : OffersAlike b.notes b'.notes) (hrequests : b.requests.Perm b'.requests)
    (h : b.Prepares salt t) (salt' : Nat → Felt) :
    ∃ t', b'.Prepares salt' t' ∧ t'.surplus = t.surplus ∧
      (assetsOf t'.tokens.chosen).Perm (assetsOf t.tokens.chosen) := by
  have hassets : (b.requests.map Outflow.asset).Perm (b'.requests.map Outflow.asset) :=
    hrequests.map _
  obtain ⟨asked', hasked'⟩ := Holdings.exists_ofAssets_iff.mpr (h.tallies.fits.perm hassets)
  have htallies' := Holdings.tallies_of_ofAssets hasked'
  obtain ⟨-, hfungible, -⟩ := h.tallies.agree htallies' hassets
  obtain ⟨tokens', htokens', hchosen⟩ :=
    selectTokens_of_alike halike h.tallies htallies' hassets h.tokens
  refine ⟨⟨asked', tokens', t.surplus, t.externalFee, t.gathered⟩, ⟨?_, htokens', ?_, ?_, ?_⟩, rfl,
    hchosen⟩
  · exact (Holdings.ofNotes_map Outflow.note b'.requests).trans hasked'
  · exact tokenSurplus_of_perm (selectTokens_ok h.tallies h.tokens).2
      (selectTokens_ok htallies' htokens').2 hfungible hchosen h.surplus
  · rw [externalFees?_eq_some_iff, externalTotal_tokenOutflow, h.externalFee_eq]
    exact externalTotal_perm hrequests
  · rw [sum?_eth_eq_some_iff, h.gathered_eq]
    exact etherTotal_perm hchosen.symm

end Builder

end ShieldedWallet
