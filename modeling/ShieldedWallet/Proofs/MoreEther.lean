/-
More ether never hurts.

A note of ether added to those at hand never makes a plan impossible that was
possible before, nor adds to its inputs or its fee.  The token notes chosen hold
what they held, and the larger pool has at every count notes worth at least as
much.

* `offersAlike_provide` — a note of ether changes nothing about the tokens;
* `Builder.Pays.provide` — a count that paid still pays;
* `Builder.build_provide` — the plan with the note is built, with no more inputs
  and no higher fee.

Design notes: copies of one single token may hold different ether, and a note
added moves the place that a later choice finds first, so no two are allowed.
The total of all ether must fit, or the larger notes could overflow where the
smaller ones did not.
-/
import ShieldedWallet.Proofs.AlikeNotes

namespace ShieldedWallet

/-! ### Ether in part of the notes -/

theorem etherTotal_le_of_sublist {xs ys : List Asset} (h : xs.Sublist ys) :
    etherTotal xs ≤ etherTotal ys := by
  induction h with
  | slnil => exact Nat.le_refl 0
  | cons a _ ih => exact Nat.le_trans ih (Nat.le_add_left _ _)
  | cons_cons a _ ih => exact Nat.add_le_add_left ih _

theorem etherTotal_le_of_subperm {us vs : List Utxo} (h : us.Subperm vs) :
    etherTotal (assetsOf us) ≤ etherTotal (assetsOf vs) := by
  obtain ⟨ws, hperm, hsublist⟩ := h
  rw [← etherTotal_eq_of_perm hperm]
  exact etherTotal_le_of_sublist (hsublist.map _)

namespace Builder

/-! ### A note of ether added -/

theorem offersAlike_provide {notes : List Utxo} {note : Utxo}
    (hnote : note.asset.isEtherOnly = true)
    (hnodup : (singlePositions (assetsOf notes)).Nodup) : OffersAlike notes (notes ++ [note]) := by
  have hfungible := Asset.isFungible_eq_false_of_isEtherOnly hnote
  have hsingle : note.asset.isSingle = false := by
    rw [Asset.isEtherOnly, Bool.and_eq_true, decide_eq_true_eq] at hnote
    simp [Asset.isSingle, hnote.2]
  refine ⟨fun token => ?_, ?_, fun a ha b hb htoken hid => ?_⟩
  · have hnot : holdsFungible token note = false := by
      rw [holdsFungible, hfungible, Bool.false_and]
    have hfilter : (notes ++ [note]).filter (holdsFungible token) =
        notes.filter (holdsFungible token) := by
      rw [List.filter_append, List.filter_cons, hnot]
      exact List.append_nil _
    rw [fungibleCandidates, fungibleCandidates, hfilter]
  · have hfilter : (assetsOf (notes ++ [note])).filter Asset.isSingle =
        (assetsOf notes).filter Asset.isSingle := by
      rw [assetsOf_append, List.filter_append, assetsOf_cons, List.filter_cons, hsingle]
      exact List.append_nil _
    rw [hfilter]
  · exact List.inj_on_of_nodup_map hnodup ha hb (Prod.ext htoken hid)

section Provide

variable {b : Builder} {note : Utxo} {salt salt' : Nat → Felt} {t t' : Preparation}

theorem Prepares.chosen_append_pool_subperm (h : b.Prepares salt t) :
    (t.tokens.chosen ++ etherPool t.tokens.left).Subperm b.notes := by
  have hparts : (t.tokens.chosen ++ t.tokens.left).Perm b.notes :=
    (selectTokens_ok h.tallies h.tokens).1
  have hpool := (etherPool_perm t.tokens.left).subperm.trans List.filter_sublist.subperm
  exact ((List.subperm_append_left t.tokens.chosen).mpr hpool).trans hparts.subperm

/-- The pool grows by the note of ether. -/
theorem Prepares.pool_subperm (h : b.Prepares salt t) (h' : (b.provide note).Prepares salt' t') :
    (etherPool t.tokens.left).Subperm (etherPool t'.tokens.left) := by
  have hnotes : b.etherNotes.Subperm (b.provide note).etherNotes :=
    ((List.sublist_append_left b.notes [note]).filter _).subperm
  exact h'.pool_perm.symm.subperm_left.mp (h.pool_perm.symm.subperm_right.mp hnotes)

/-- Beside token notes of the same assets a count that paid still pays. -/
theorem Pays.provide {k : Nat} (hk : b.Pays t (etherPool t.tokens.left) k)
    (h : b.Prepares salt t) (h' : (b.provide note).Prepares salt' t')
    (hsurplus : t'.surplus = t.surplus)
    (hchosen : (assetsOf t'.tokens.chosen).Perm (assetsOf t.tokens.chosen))
    (hfits : etherTotal (assetsOf (b.provide note).notes) < amountBound) :
    (b.provide note).Pays t' (etherPool t'.tokens.left) k := by
  have hpool := h.pool_subperm h'
  have hrequired (n : Nat) : (b.provide note).requiredEther t'.surplus.length n =
      b.requiredEther t.surplus.length n := by
    rw [hsurplus]
    rfl
  -- the largest notes of the pool with the note are worth as much as any others
  have hworth := etherTotal_le_take (etherPool_descending t'.tokens.left)
    ((List.take_sublist k _).subperm.trans hpool)
  rw [List.length_take_of_le hk.le_length] at hworth
  have hpart : (t'.tokens.chosen ++ (etherPool t'.tokens.left).take k).Subperm
      (b.provide note).notes :=
    ((List.subperm_append_left _).mpr (List.take_sublist k _).subperm).trans
      h'.chosen_append_pool_subperm
  have hgathered := etherTotal_le_of_subperm hpart
  rw [assetsOf_append, etherTotal_append] at hgathered
  exact hk.transfer (fun n => Nat.le_of_eq (hrequired n)) (length_eq_of_assetsOf_perm hchosen)
    (etherTotal_perm hchosen) (Nat.le_trans hk.le_length hpool.length_le) hworth
    (Nat.lt_of_le_of_lt hgathered hfits)

end Provide

/-- Where a plan is built, one is built too after a note of ether is added, if no two single tokens
at hand are of one contract and id and all ether at hand fits 256 bits.  It has no more inputs and no
higher fee. -/
theorem build_provide {b : Builder} {note : Utxo} {salt : Nat → Felt} {plan : Plan}
    (hsize : b.estimate.Usual) (hnodup : (singlePositions (assetsOf b.notes)).Nodup)
    (hnote : note.asset.isEtherOnly = true)
    (hfits : etherTotal (assetsOf (b.provide note).notes) < amountBound)
    (hbuild : b.build salt = .ok plan) (salt' : Nat → Felt) :
    ∃ plan', (b.provide note).build salt' = .ok plan' ∧
      plan'.inflow.length ≤ plan.inflow.length ∧ plan'.fee ≤ plan.fee := by
  obtain ⟨st, hst, rfl⟩ := build_eq_ok_iff.mp hbuild
  have hrequests : b.requests.Perm (b.provide note).requests := List.Perm.refl _
  obtain ⟨t', ht', hsurplus, hchosen⟩ :=
    hst.prepares.of_alike (offersAlike_provide hnote hnodup) hrequests salt'
  have hpays := hst.pays.provide hst.prepares ht' hsurplus hchosen hfits
  obtain ⟨st', hst', rfl⟩ := ht'.exists_reaches hpays
  have hcount : st'.tokens.chosen.length = st.tokens.chosen.length :=
    length_eq_of_assetsOf_perm hchosen
  have hfewer : st'.tokens.chosen.length + st'.ether.chosen.length ≤
      st.tokens.chosen.length + st.ether.chosen.length := by
    rw [hcount]
    exact Nat.add_le_add_left (hst'.isLeast_pays.2 hpays) _
  refine ⟨_, hst'.build_eq, ?_, ?_⟩
  · rw [planOf, planOf, List.length_append, List.length_append]
    exact hfewer
  · have hlength : st'.surplus.length = st.surplus.length := congrArg List.length hsurplus
    rw [Amount.le_def, hst.fee_eq_price, hst'.fee_eq_price, hlength]
    exact Nat.mul_le_mul_left _ (hsize.grows.inputs hfewer _ _ _ _)

/-- A larger note of ether beside those at hand for `mixedBuilder`: four inputs and the same fee are
enough again. -/
theorem build_provide_mixed :
    ∃ plan plan', mixedBuilder.build (fun _ => 0) = .ok plan ∧
      (mixedBuilder.provide (looseNote (.ether 30000))).build (fun _ => 1) = .ok plan' ∧
        plan'.inflow.length ≤ 4 ∧ plan'.fee ≤ 9120 := by
  have hbuild := mixedBuilder_reaches.build_eq
  have hnote : (looseNote (.ether 30000)).asset.isEtherOnly = true := rfl
  obtain ⟨plan', hbuild', hinputs, hfee⟩ :=
    build_provide .wire (by decide) hnote (by decide) hbuild fun _ => 1
  exact ⟨_, plan', hbuild, hbuild', hinputs, hfee⟩

end Builder

end ShieldedWallet
