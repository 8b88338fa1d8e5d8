/-
The exact choice of single tokens.

Single tokens are taken by id, a note for each time the id is asked for.  A
contract's notes at hand count as a multiset of ids: whether the choice can be
made, and what is reported if not, depends on nothing else, although every note
taken moves another one to its place.

* `FirstMissing` — the first id asked for of which too few are held;
* `takeSingles_cons` — what one step of the choice does;
* `exists_takeSingles_iff`, `takeSingles_eq_error_iff` — how the choice ends for
  one contract;
* `exists_selectAllSingles_iff` — it can be made for all contracts if it can be
  made for each of them alone;
* `selectSingles_exact` — the choice with the check of the count in front.

Design notes: the check of the count never refuses what could be chosen, since a
multiset of ids that is held is no larger than all that is held.
-/
import Mathlib.Data.List.Perm.Subperm
import ShieldedWallet.Proofs.Conservation
import ShieldedWallet.Proofs.OrderFree

namespace ShieldedWallet

open Builder (looseNote)

/-! ### Ids held -/

section Held

variable {token : LedgerAddress} {available : List Utxo}

theorem length_singleIds (token : LedgerAddress) (available : List Utxo) :
    (singleIds token (assetsOf available)).length = available.countP (holdsSingle token) := by
  rw [singleIds, List.length_map, ← List.countP_eq_length_filter, assetsOf, List.countP_map]
  rfl

theorem mem_singleIds_assetsOf {id : Amount} :
    id ∈ singleIds token (assetsOf available) ↔
      ∃ u ∈ available, holdsSingle token u = true ∧ u.asset.tokenId = id := by
  simp only [singleIds, assetsOf, List.mem_map, List.mem_filter]
  constructor
  · rintro ⟨a, ⟨⟨u, hu, rfl⟩, hholds⟩, hid⟩
    exact ⟨u, hu, hholds, hid⟩
  · rintro ⟨u, hu, hholds, hid⟩
    exact ⟨u.asset, ⟨⟨u, hu, rfl⟩, hholds⟩, hid⟩

/-- A note taken out takes its id out of those that are held. -/
theorem singleIds_of_taken {u : Utxo} {rest : List Utxo} (hperm : (u :: rest).Perm available)
    (hu : holdsSingle token u = true) :
    (singleIds token (assetsOf available)).Perm
      (u.asset.tokenId :: singleIds token (assetsOf rest)) := by
  have hheld : singleIds token (assetsOf (u :: rest)) =
      u.asset.tokenId :: singleIds token (assetsOf rest) := by
    rw [assetsOf_cons, singleIds_cons]
    exact if_pos hu
  rw [← hheld]
  exact (singleIds_perm (hperm.map _) token).symm

end Held

/-! ### What is missing first -/

/-- Up to its place the id is asked for more often than it is held, and no id before it is. -/
def FirstMissing (held asked : List Amount) (id : Amount) : Prop :=
  ∃ front back, asked = front ++ id :: back ∧ (∀ x, front.count x ≤ held.count x) ∧
    held.count id < (front ++ [id]).count id

section Missing

variable {held rest asked : List Amount} {x id : Amount}

theorem not_firstMissing_nil : ¬ FirstMissing held [] id := by
  rintro ⟨front, back, h, -⟩
  exact absurd h.symm (by simp)

theorem firstMissing_cons_of_not_mem (h : x ∉ held) :
    FirstMissing held (x :: asked) id ↔ id = x := by
  have hzero : held.count x = 0 := List.count_eq_zero.mpr h
  constructor
  · rintro ⟨front, back, hsplit, hfront, -⟩
    cases front with
    | nil => exact (List.cons.inj hsplit).1.symm
    | cons y front =>
      obtain ⟨rfl, -⟩ := List.cons.inj hsplit
      have hcount := hfront x
      rw [List.count_cons_self, hzero] at hcount
      exact absurd hcount (Nat.not_succ_le_zero _)
  · rintro rfl
    refine ⟨[], asked, rfl, fun y => ?_, ?_⟩
    · rw [List.count_nil]
      exact Nat.zero_le _
    · rw [hzero, List.nil_append, List.count_singleton_self]
      exact Nat.one_pos

/-- An id that is held is used up, and the rest is missed in what is then left. -/
theorem firstMissing_cons_of_perm (h : held.Perm (x :: rest)) :
    FirstMissing held (x :: asked) id ↔ FirstMissing rest asked id := by
  have hcount (y : Amount) (ids : List Amount) :
      (x :: ids).count y ≤ held.count y ↔ ids.count y ≤ rest.count y := by
    rw [h.count_eq, List.count_cons, List.count_cons]
    exact Nat.add_le_add_iff_right
  constructor
  · rintro ⟨front, back, hsplit, hfront, hid⟩
    cases front with
    | nil =>
      obtain ⟨rfl, -⟩ := List.cons.inj hsplit
      rw [h.count_eq, List.nil_append, List.count_cons_self, List.count_singleton_self] at hid
      omega
    | cons y front =>
      obtain ⟨rfl, hasked⟩ := List.cons.inj hsplit
      refine ⟨front, back, hasked, fun y => (hcount y front).mp (hfront y), ?_⟩
      rw [List.cons_append, ← Nat.not_le, hcount] at hid
      exact Nat.lt_of_not_le hid
  · rintro ⟨front, back, rfl, hfront, hid⟩
    refine ⟨x :: front, back, rfl, fun y => (hcount y front).mpr (hfront y), ?_⟩
    rw [List.cons_append, ← Nat.not_le, hcount, Nat.not_le]
    exact hid

end Missing

/-! ### The choice for one contract -/

section Take

variable {token : LedgerAddress} {available : List Utxo} {ids : List Amount} {e : BuildError}

/-- One step takes some note of the id and goes on with the others, or there is no such note. -/
theorem takeSingles_cons (token : LedgerAddress) (available : List Utxo) (id : Amount)
    (ids : List Amount) :
    (id ∉ singleIds token (assetsOf available) ∧
        takeSingles token available (id :: ids) = .error (.singleNotFound token id)) ∨
      ∃ u rest, (u :: rest).Perm available ∧
        (singleIds token (assetsOf available)).Perm (id :: singleIds token (assetsOf rest)) ∧
          takeSingles token available (id :: ids) = (do
            let s ← takeSingles token rest ids
            return { s with chosen := u :: s.chosen }) := by
  cases hi : available.findIdx? fun u => holdsSingle token u && u.asset.tokenId = id with
  | none =>
    refine .inl ⟨?_, ?_⟩
    · rw [mem_singleIds_assetsOf]
      rintro ⟨u, hu, hholds, hid⟩
      have hnot := List.findIdx?_eq_none_iff.mp hi u hu
      rw [hholds, hid, decide_eq_true rfl] at hnot
      cases hnot
    · rw [takeSingles, hi]
  | some i =>
    obtain ⟨hlt, hfound, -⟩ := List.findIdx?_eq_some_iff_getElem.mp hi
    rw [Bool.and_eq_true, decide_eq_true_eq] at hfound
    obtain ⟨hholds, rfl⟩ := hfound
    have hu : available[i]? = some available[i] := List.getElem?_eq_getElem hlt
    have hperm := swapRemove_perm hu
    refine .inr ⟨available[i], swapRemove available i, hperm, singleIds_of_taken hperm hholds, ?_⟩
    simp only [takeSingles, hi, hu]

/-- The ids can be taken exactly if they are held, each as often as it is asked for. -/
theorem exists_takeSingles_iff :
    (∃ s, takeSingles token available ids = .ok s) ↔
      ids.Subperm (singleIds token (assetsOf available)) := by
  induction ids generalizing available with
  | nil => exact iff_of_true ⟨_, rfl⟩ List.nil_subperm
  | cons id ids ih =>
    rcases takeSingles_cons token available id ids with ⟨hnot, h⟩ | ⟨u, rest, -, hheld, h⟩
    · rw [h]
      refine iff_of_false ?_ fun hsub => hnot (hsub.subset List.mem_cons_self)
      rintro ⟨s, hs⟩
      cases hs
    · rw [h, hheld.subperm_left, List.subperm_cons, ← ih]
      constructor
      · rintro ⟨s, hs⟩
        obtain ⟨t, ht, -⟩ := Except.bind_eq_ok_iff.mp hs
        exact ⟨t, ht⟩
      · rintro ⟨t, ht⟩
        exact ⟨_, Except.bind_eq_ok_iff.mpr ⟨t, ht, rfl⟩⟩

/-- What cannot be taken is reported with the first id that is missing. -/
theorem takeSingles_eq_error_iff :
    takeSingles token available ids = .error e ↔
      ∃ id, FirstMissing (singleIds token (assetsOf available)) ids id ∧
        e = .singleNotFound token id := by
  induction ids generalizing available with
  | nil =>
    refine iff_of_false (fun h => nomatch h) ?_
    rintro ⟨id, hid, -⟩
    exact not_firstMissing_nil hid
  | cons id ids ih =>
    rcases takeSingles_cons token available id ids with ⟨hnot, h⟩ | ⟨u, rest, -, hheld, h⟩
    · simp only [h, firstMissing_cons_of_not_mem hnot, exists_eq_left, Except.error.injEq]
      exact eq_comm
    · simp only [h, firstMissing_cons_of_perm hheld, ← ih, Except.bind_eq_error_iff]
      -- putting the note in front of the others cannot fail
      exact or_iff_left (fun ⟨_, _, hpure⟩ => nomatch hpure)

end Take

/-! ### The choice with the count -/

section Select

variable {token : LedgerAddress} {available : List Utxo} {ids : List Amount} {e : BuildError}

theorem exists_selectSingles_iff :
    (∃ s, selectSingles available token ids = .ok s) ↔
      ids.Subperm (singleIds token (assetsOf available)) := by
  rw [← exists_takeSingles_iff, selectSingles]
  by_cases hlt : available.countP (holdsSingle token) < ids.length
  · -- fewer are held than are asked for, so the ids are not all held
    have hnot : ¬ ids.Subperm (singleIds token (assetsOf available)) := by
      intro hsub
      have hle := hsub.length_le
      rw [length_singleIds] at hle
      omega
    rw [if_pos hlt, exists_takeSingles_iff]
    refine iff_of_false ?_ hnot
    rintro ⟨s, hs⟩
    cases hs
  · rw [if_neg hlt]

theorem selectSingles_eq_error_iff :
    selectSingles available token ids = .error e ↔
      (singleIds token (assetsOf available)).length < ids.length ∧
          e = .notEnoughSingles token ids.length (singleIds token (assetsOf available)).length ∨
        ids.length ≤ (singleIds token (assetsOf available)).length ∧
          ∃ id, FirstMissing (singleIds token (assetsOf available)) ids id ∧
            e = .singleNotFound token id := by
  rw [length_singleIds, ← takeSingles_eq_error_iff, selectSingles]
  by_cases hlt : available.countP (holdsSingle token) < ids.length
  · rw [if_pos hlt, or_iff_left (fun h => Nat.not_le.mpr hlt h.1), and_iff_right hlt,
      Except.error.injEq]
    exact eq_comm
  · rw [if_neg hlt, or_iff_right (fun h => hlt h.1), and_iff_right (Nat.not_lt.mp hlt)]

end Select

/-- What is taken of one contract leaves the ids of the others as they are. -/
theorem singleIds_left {token other : LedgerAddress} {available : List Utxo} {ids : List Amount}
    {s : Selection} (h : selectSingles available token ids = .ok s) (hne : token ≠ other) :
    (singleIds other (assetsOf s.left)).Perm (singleIds other (assetsOf available)) := by
  obtain ⟨hparts, hholds, -⟩ := selectSingles_ok h
  have hperm := singleIds_perm (hparts.map Utxo.asset) other
  have hnone := Builder.singleIds_assetsOf hholds other
  rw [if_neg hne] at hnone
  rwa [← assetsOf, ← assetsOf, assetsOf_append, singleIds_append, hnone, List.nil_append] at hperm

/-- A choice for all contracts can be made exactly if each can be made alone. -/
theorem exists_selectAllSingles_iff {asked : TokenMap (List Amount)} {available : List Utxo}
    (hasc : asked.Ascending) :
    (∃ s, Builder.selectAllSingles available asked = .ok s) ↔
      ∀ e ∈ asked, e.2.Subperm (singleIds e.1 (assetsOf available)) := by
  induction asked generalizing available with
  | nil => exact iff_of_true ⟨_, rfl⟩ fun e he => absurd he List.not_mem_nil
  | cons e rest ih =>
    obtain ⟨token, ids⟩ := e
    have hrest := (TokenMap.ascending_cons_iff.mp hasc).2
    have hothers {s : Selection} (hs : selectSingles available token ids = .ok s) :
        (∀ e ∈ rest, e.2.Subperm (singleIds e.1 (assetsOf s.left))) ↔
          ∀ e ∈ rest, e.2.Subperm (singleIds e.1 (assetsOf available)) := by
      refine forall₂_congr fun e he => (singleIds_left hs ?_).subperm_left
      exact hasc.ne_of_mem_keys (List.mem_map_of_mem he)
    rw [List.forall_mem_cons, ← exists_selectSingles_iff]
    constructor
    · rintro ⟨s, hs⟩
      obtain ⟨first, later, hfirst, hlater, -⟩ := Builder.selectAllSingles_cons_eq_ok_iff.mp hs
      exact ⟨⟨first, hfirst⟩, (hothers hfirst).mp ((ih hrest).mp ⟨later, hlater⟩)⟩
    · rintro ⟨⟨first, hfirst⟩, hlast⟩
      obtain ⟨later, hlater⟩ := (ih hrest).mpr ((hothers hfirst).mpr hlast)
      exact ⟨_, Builder.selectAllSingles_cons_eq_ok_iff.mpr ⟨first, later, hfirst, hlater, rfl⟩⟩

/-- The choice succeeds exactly if each id is asked for at most as often as it is held.  It then
parts the notes at hand, and the notes chosen are of the contract and of the ids asked for, in their
order.  Where fewer notes of the contract are held than ids asked for, that is what is reported;
otherwise it is the first id that is asked for, up to its place, more often than it is held. -/
theorem selectSingles_exact (available : List Utxo) (token : LedgerAddress) (ids : List Amount) :
    ((∃ s, selectSingles available token ids = .ok s) ↔
        ∀ id, ids.count id ≤ (singleIds token (assetsOf available)).count id) ∧
      (∀ s, selectSingles available token ids = .ok s →
        s.Parts available ∧ (∀ u ∈ s.chosen, holdsSingle token u = true) ∧
          s.chosen.map (fun u => u.asset.tokenId) = ids) ∧
      ∀ e, selectSingles available token ids = .error e ↔
        (singleIds token (assetsOf available)).length < ids.length ∧
            e = .notEnoughSingles token ids.length (singleIds token (assetsOf available)).length ∨
          ids.length ≤ (singleIds token (assetsOf available)).length ∧
            ∃ id, FirstMissing (singleIds token (assetsOf available)) ids id ∧
              e = .singleNotFound token id := by
  refine ⟨?_, fun s hs => selectSingles_ok hs, fun e => selectSingles_eq_error_iff⟩
  rw [exists_selectSingles_iff, List.subperm_iff_count]

/-- Two copies of a single token, another one between them, and one of another contract. -/
def album : List Utxo :=
  [looseNote ⟨0, .zero, 0, 9⟩, looseNote (.ether 7), looseNote ⟨0, .zero, 0, 4⟩,
    looseNote ⟨0, ⟨1, by decide⟩, 0, 9⟩, looseNote ⟨3, .zero, 0, 9⟩]

/-- Of `album` both copies can be taken, a third one is not found although three tokens of the
contract are held, and four are too many for any ids. -/
theorem selectSingles_exact_album :
    (∃ s, selectSingles album .zero [9, 4, 9] = .ok s ∧ s.Parts album ∧
        s.chosen.map (fun u => u.asset.tokenId) = [9, 4, 9]) ∧
      selectSingles album .zero [9, 9, 9] = .error (.singleNotFound .zero 9) ∧
      selectSingles album .zero [9, 4, 9, 4] = .error (.notEnoughSingles .zero 4 3) := by
  have hheld : singleIds .zero (assetsOf album) = [9, 4, 9] := rfl
  refine ⟨?_, ?_, ?_⟩
  · obtain ⟨hiff, hok, -⟩ := selectSingles_exact album .zero [9, 4, 9]
    obtain ⟨s, hs⟩ := hiff.mpr fun id => by rw [hheld]
    obtain ⟨hparts, -, hids⟩ := hok s hs
    exact ⟨s, hs, hparts, hids⟩
  · have htwo (x : Amount) : [(9 : Amount), 9].count x ≤ [(9 : Amount), 4, 9].count x :=
      (show [(9 : Amount), 9].Sublist [9, 4, 9] by decide).count_le x
    exact ((selectSingles_exact album .zero [9, 9, 9]).2.2 _).mpr
      (.inr ⟨by decide, 9, ⟨[9, 9], [], rfl, htwo, by decide⟩, rfl⟩)
  · exact ((selectSingles_exact album .zero [9, 4, 9, 4]).2.2 _).mpr (.inl ⟨by decide, rfl⟩)

end ShieldedWallet
