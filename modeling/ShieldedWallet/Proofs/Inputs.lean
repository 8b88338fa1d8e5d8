/-
The inputs of what is built.

Every input of a plan is a note at hand, taken once, and is there for one of
three reasons: its fungible token is asked for, its single token is asked for,
or its ether pays.  The inputs stand in this order: notes of fungible tokens by
token and amount, single tokens, notes of ether from the largest one down.

* `singlePositions_perm` — lists with the same ids under each contract hold the
  same single tokens;
* `selectFungibles_ordered` — the notes chosen for all fungible tokens are in
  order;
* `Builder.Warrants` — the reasons and the orders;
* `Builder.inflow_of_build` — both hold of every plan built, and no note is
  taken more often than it is at hand.
-/
import ShieldedWallet.Proofs.Capacity

namespace ShieldedWallet

/-! ### Single tokens as pairs -/

/-- The single tokens of a list of assets, each as contract and id. -/
def singlePositions (assets : List Asset) : List (LedgerAddress × Amount) :=
  (assets.filter Asset.isSingle).map fun a => (a.token, a.tokenId)

theorem count_singlePositions (token : LedgerAddress) (id : Amount) (assets : List Asset) :
    (singlePositions assets).count (token, id) = (singleIds token assets).count id := by
  rw [singlePositions, singleIds, List.count_eq_countP, List.count_eq_countP, List.countP_map,
    List.countP_map, List.countP_filter, List.countP_filter]
  refine List.countP_congr fun a _ => ?_
  simp only [Asset.isSingleOf, Function.comp_apply, Bool.and_eq_true, beq_iff_eq, Prod.mk.injEq,
    decide_eq_true_eq]
  constructor
  · rintro ⟨⟨htoken, hid⟩, hsingle⟩
    exact ⟨hid, hsingle, htoken⟩
  · rintro ⟨hid, hsingle, htoken⟩
    exact ⟨⟨htoken, hid⟩, hsingle⟩

theorem singlePositions_perm {xs ys : List Asset}
    (h : ∀ token, (singleIds token xs).Perm (singleIds token ys)) :
    (singlePositions xs).Perm (singlePositions ys) := by
  refine List.perm_iff_count.mpr fun position => ?_
  obtain ⟨token, id⟩ := position
  rw [count_singlePositions, count_singlePositions, (h token).count_eq]

/-! ### Notes by token and amount -/

/-- Notes of smaller tokens stand first, and of one token those of smaller amounts. -/
def TokenOrder (u v : Utxo) : Prop :=
  u.asset.token < v.asset.token ∨
    u.asset.token = v.asset.token ∧ u.asset.amount ≤ v.asset.amount

theorem selectFungible_ascending {available : List Utxo} {token : LedgerAddress} {asked : Amount}
    {s : Selection} (h : selectFungible available token asked = .ok s) :
    s.chosen.Pairwise fun u v => u.asset.amount ≤ v.asset.amount := by
  obtain ⟨total, unused, hrun, -, -⟩ := selectFungible_eq_ok_iff.mp h
  have horder := (fungibleCandidates_order available token).ascending
  rw [(takeUntil_ok hrun).1] at horder
  exact (List.pairwise_append.mp horder).1

theorem selectFungibles_ordered {asked : TokenMap Amount} {available : List Utxo} {s : Selection}
    (hasc : asked.Ascending) (h : Builder.selectFungibles available asked = .ok s) :
    s.chosen.Pairwise TokenOrder := by
  induction asked generalizing available s with
  | nil =>
    cases h
    exact List.Pairwise.nil
  | cons e rest ih =>
    obtain ⟨token, amount⟩ := e
    obtain ⟨first, others, hfirst, hothers, rfl⟩ := Builder.selectFungibles_cons_eq_ok_iff.mp h
    obtain ⟨hbelow, hrest⟩ := TokenMap.ascending_cons_iff.mp hasc
    obtain ⟨-, hholds, -⟩ := selectFungible_ok hfirst
    obtain ⟨-, hholds', -⟩ := Builder.selectFungibles_ok hothers
    -- the notes of one token are in order by amount, and all later tokens are larger
    refine List.pairwise_append.mpr ⟨?_, ih hrest hothers, ?_⟩
    · refine (selectFungible_ascending hfirst).imp_of_mem fun hu hv hle => .inr ⟨?_, hle⟩
      rw [(holdsFungible_iff.mp (hholds _ hu)).2, (holdsFungible_iff.mp (hholds _ hv)).2]
    · intro u hu v hv
      obtain ⟨later, hlater, hv⟩ := hholds' v hv
      left
      rw [(holdsFungible_iff.mp (hholds u hu)).2, (holdsFungible_iff.mp hv).2]
      exact hbelow later hlater

namespace Builder

/-- Why the notes of three lists are inputs, and the order in which each list stands: fungible
tokens and single tokens that are asked for, and ether. -/
structure Warrants (b : Builder) (coins singles ether : List Utxo) : Prop where
  coins_asked : ∀ u ∈ coins, u.asset.isFungible = true ∧ u.asset.token ∈ b.askedTokens
  coins_ordered : coins.Pairwise TokenOrder
  singles_only : ∀ u ∈ singles, u.asset.isSingle = true
  singles_asked : (singlePositions (assetsOf singles)).Perm
    (singlePositions (b.requests.map Outflow.asset))
  ether_only : ∀ u ∈ ether, u.asset.isEtherOnly = true
  ether_descending : Descending ether

theorem Reaches.warrants {b : Builder} {salt : Nat → Felt} {st : Stages}
    (h : b.Reaches salt st) :
    ∃ coins singles, st.tokens.chosen = coins ++ singles ∧
      b.Warrants coins singles st.ether.chosen := by
  have htallies := h.tallies
  obtain ⟨coins, singles, hcoins, hsingles, htokens⟩ := selectTokens_eq_ok_iff.mp h.tokens
  obtain ⟨-, hholds, -⟩ := selectFungibles_ok hcoins
  obtain ⟨-, hsingle, hids⟩ := selectAllSingles_ok htallies.single_ascending hsingles
  have hpool := (coverEther_ok h.ether).isPrefix
  refine ⟨coins.chosen, singles.chosen, by rw [htokens], ?_, ?_, hsingle, ?_, ?_, ?_⟩
  · intro u hu
    obtain ⟨token, htoken, hu⟩ := hholds u hu
    obtain ⟨hfungible, rfl⟩ := holdsFungible_iff.mp hu
    exact ⟨hfungible, mem_askedTokens.mpr ((htallies.mem_fungible _).mp htoken)⟩
  · exact selectFungibles_ordered htallies.fungible_ascending hcoins
  · refine singlePositions_perm fun token => ?_
    rw [hids token, ← htallies.idsOf token]
    exact List.Perm.refl _
  · intro u hu
    exact (mem_etherPool.mp (hpool.subset hu)).2
  · exact (etherPool_descending st.tokens.left).sublist hpool.sublist

/-- No input of a plan built is taken more often than it is at hand, and the inputs are, in this
order, notes of the fungible tokens asked for, ascending by token and amount; one note for each
single token asked for, as often as it is asked for; and notes of ether alone, descending. -/
theorem inflow_of_build {b : Builder} {salt : Nat → Felt} {plan : Plan}
    (hbuild : b.build salt = .ok plan) :
    plan.inflow.Subperm b.notes ∧ ∃ coins singles ether,
      plan.inflow = coins ++ singles ++ ether ∧ b.Warrants coins singles ether := by
  obtain ⟨st, hst, rfl⟩ := build_eq_ok_iff.mp hbuild
  obtain ⟨coins, singles, htokens, hwarrants⟩ := hst.warrants
  refine ⟨hst.inflow_subperm, coins, singles, st.ether.chosen, ?_, hwarrants⟩
  rw [planOf, htokens]

/-- The four inputs for `mixedBuilder`: two notes of the fungible token asked for, the single token
asked for, and a note of ether. -/
theorem inflow_of_build_mixed :
    ∃ plan coins singles ether, mixedBuilder.build (fun _ => 0) = .ok plan ∧
      plan.inflow = [looseNote ⟨2, .zero, 3, 0⟩, looseNote ⟨0, .zero, 5, 0⟩,
        looseNote ⟨1, .zero, 0, 9⟩, looseNote (.ether 20000)] ∧
      plan.inflow.Subperm mixedBuilder.notes ∧ plan.inflow = coins ++ singles ++ ether ∧
      mixedBuilder.Warrants coins singles ether := by
  have hbuild := mixedBuilder_reaches.build_eq
  obtain ⟨hnotes, coins, singles, ether, hsplit, hwarrants⟩ := inflow_of_build hbuild
  exact ⟨_, coins, singles, ether, hbuild, rfl, hnotes, hsplit, hwarrants⟩

end Builder

end ShieldedWallet
