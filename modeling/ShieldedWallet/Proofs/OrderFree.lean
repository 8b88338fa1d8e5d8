/-
Totals that no order matters for.

Assets in another order have the same ether and the same amount of each fungible
token, and of each contract the same ids up to order.  Holdings of them are
therefore the same, but for the order in which ids stand.

* `TokenMap.Ascending.ext` — ascending maps in which the same is found under
  every token are equal;
* `Holdings.Tallies.agree` — holdings of the same assets in another order;
* `List.perm_of_map_perm` — lists that a map takes to permutations of each other
  are such themselves where the map tells their elements apart.

Design notes: ether and amounts are compared as numbers and not as assets, since
lists that are compared need not hold the same assets, only equal totals.
-/
import Mathlib.Data.List.Nodup
import ShieldedWallet.Proofs.Balance

/-- Lists that a map takes to permutations of each other are such themselves, if the map tells the
elements of one from those of the other. -/
theorem List.perm_of_map_perm {α β : Type} {f : α → β} {xs ys : List α}
    (hinj : ∀ x ∈ xs, ∀ y ∈ ys, f x = f y → x = y) (h : (xs.map f).Perm (ys.map f)) :
    xs.Perm ys := by
  induction xs generalizing ys with
  | nil => exact (List.map_eq_nil_iff.mp (List.nil_perm.mp h)) ▸ List.Perm.refl _
  | cons x xs ih =>
    obtain ⟨hx, hxs⟩ := List.forall_mem_cons.mp hinj
    -- the element that has the image of the head is the head itself
    obtain ⟨y, hy, hfy⟩ := List.mem_map.mp (h.mem_iff.mp List.mem_cons_self)
    obtain rfl := hx y hy hfy.symm
    obtain ⟨front, back, rfl⟩ := List.append_of_mem hy
    have hmiddle : (front ++ x :: back).Perm (x :: (front ++ back)) := List.perm_middle
    have hrest : (xs.map f).Perm ((front ++ back).map f) :=
      List.Perm.cons_inv (h.trans (hmiddle.map f))
    have htail : xs.Perm (front ++ back) := ih
      (fun z hz w hw => hxs z hz w (hmiddle.mem_iff.mpr (List.mem_cons_of_mem x hw))) hrest
    exact (htail.cons x).trans hmiddle.symm

namespace ShieldedWallet

/-! ### Ascending maps -/

namespace TokenMap

variable {α : Type} {m m' : TokenMap α}

theorem Ascending.mem_iff (hm : m.Ascending) {token : LedgerAddress} {v : α} :
    (token, v) ∈ m ↔ m.get? token = some v :=
  ⟨hm.get?_of_mem, mem_of_get?⟩

/-- Ascending maps in which the same is found under every token are equal. -/
theorem Ascending.ext (hm : m.Ascending) (hm' : m'.Ascending)
    (h : ∀ token, m.get? token = m'.get? token) : m = m' := by
  have hperm : m.Perm m' := by
    refine (List.perm_ext_iff_of_nodup (.of_map _ hm.nodup) (.of_map _ hm'.nodup)).mpr ?_
    rintro ⟨token, v⟩
    rw [hm.mem_iff, hm'.mem_iff, h]
  rw [Ascending, keys, List.pairwise_map] at hm hm'
  exact List.Perm.eq_of_pairwise (fun a b _ _ hab hba => absurd hab (Nat.lt_asymm hba)) hm hm'
    hperm

theorem Ascending.mem_iff_getD (hm : m.Ascending) (default : α) {token : LedgerAddress} {v : α} :
    (token, v) ∈ m ↔ token ∈ m.keys ∧ v = (m.get? token).getD default := by
  constructor
  · intro h
    refine ⟨List.mem_map.mpr ⟨_, h, rfl⟩, ?_⟩
    rw [hm.get?_of_mem h, Option.getD_some]
  · rintro ⟨hkey, rfl⟩
    obtain ⟨⟨t, w⟩, hmem, rfl⟩ := List.mem_map.mp hkey
    rwa [hm.get?_of_mem hmem, Option.getD_some]

/-- Ascending maps with the same tokens list them alike. -/
theorem Ascending.keys_eq (hm : m.Ascending) (hm' : m'.Ascending)
    (h : ∀ token, token ∈ m.keys ↔ token ∈ m'.keys) : m.keys = m'.keys := by
  have hperm : m.keys.Perm m'.keys := (List.perm_ext_iff_of_nodup hm.nodup hm'.nodup).mpr h
  exact List.Perm.eq_of_pairwise (fun a b _ _ hab hba => absurd hab (Nat.lt_asymm hba)) hm hm'
    hperm

end TokenMap

/-! ### Totals of assets -/

section Assets

variable {xs ys : List Asset}

theorem etherTotal_perm (h : xs.Perm ys) : etherTotal xs = etherTotal ys := (h.map _).sum_nat

theorem fungibleTotal_perm (h : xs.Perm ys) (token : LedgerAddress) :
    fungibleTotal token xs = fungibleTotal token ys :=
  ((h.filter _).map _).sum_nat

theorem singleIds_perm (h : xs.Perm ys) (token : LedgerAddress) :
    (singleIds token xs).Perm (singleIds token ys) :=
  (h.filter _).map _

theorem Holdings.Fits.perm (hfits : Fits xs) (h : xs.Perm ys) : Fits ys :=
  ⟨etherTotal_perm h ▸ hfits.1, fun token => fungibleTotal_perm h token ▸ hfits.2 token⟩

theorem Holdings.get?_fungible {h : Holdings} (ht : h.Tallies xs) (token : LedgerAddress) :
    h.fungible.get? token =
      if token ∈ h.fungible.keys then some (h.amountOf token) else none := by
  split
  case isTrue hmem =>
    obtain ⟨⟨t, v⟩, he, rfl⟩ := List.mem_map.mp hmem
    rw [Holdings.amountOf, ht.fungible_ascending.get?_of_mem he, Option.getD_some]
  case isFalse hnot => exact TokenMap.get?_eq_none hnot

/-- Holdings of the same assets in another order are the same, but for the order of ids. -/
theorem Holdings.Tallies.agree {h h' : Holdings} (ht : h.Tallies xs) (ht' : h'.Tallies ys)
    (hperm : xs.Perm ys) :
    h'.eth = h.eth ∧ h'.fungible = h.fungible ∧
      ∀ token, (h.idsOf token).Perm (h'.idsOf token) := by
  have hamount (token : LedgerAddress) : h'.amountOf token = h.amountOf token := by
    apply Amount.ext
    rw [ht.amountOf, ht'.amountOf, fungibleTotal_perm hperm]
  have hkeys (token : LedgerAddress) : token ∈ h'.fungible.keys ↔ token ∈ h.fungible.keys := by
    rw [ht.mem_fungible, ht'.mem_fungible]
    exact exists_congr fun a => and_congr_left fun _ => hperm.mem_iff.symm
  refine ⟨Amount.ext ?_, ?_, fun token => ?_⟩
  · rw [ht.eth, ht'.eth, etherTotal_perm hperm]
  · refine ht'.fungible_ascending.ext ht.fungible_ascending fun token => ?_
    simp only [get?_fungible ht, get?_fungible ht', hkeys, hamount]
  · rw [ht.idsOf, ht'.idsOf]
    exact singleIds_perm hperm token

end Assets

/-! ### Totals of outputs -/

section Outputs

variable {os os' : List Outflow}

theorem externalTotal_perm (h : os.Perm os') : externalTotal os = externalTotal os' :=
  (h.map _).sum_nat

theorem publicCount_perm (h : os.Perm os') : publicCount os = publicCount os' := h.countP_eq _

end Outputs

end ShieldedWallet
