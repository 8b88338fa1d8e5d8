/-
Exact totals, and the holdings that keep them.

The totals of a list of assets are taken over the natural numbers: the ether,
the amount of each fungible token, and the ids of each contract's single
tokens.  Holdings are totals that are kept in amounts of 256 bits while the
assets are added one by one.

* `Holdings.Tallies` — the holdings show the exact totals of a list of assets,
  and list a token exactly if some asset holds it;
* `Holdings.Tallies.add` — adding an asset keeps this;
* `Holdings.tallies_of_ofAssets` — the totals of a list of assets are exact;
* `Holdings.exists_ofAssets_iff` — they exist exactly if no exact total exceeds
  256 bits.

Design notes: an asset that sets both an amount and an id, or neither, is of no
token here as there, so no hypothesis on assets is needed.
-/
import Mathlib.Algebra.Ring.Nat
import ShieldedWallet.Holdings
import ShieldedWallet.Proofs.Outcome

namespace ShieldedWallet

/-! ### Amounts and maps -/

theorem Amount.add?_eq_none_iff {a b : Amount} :
    a.add? b = none ↔ amountBound ≤ a.toNat + b.toNat := by
  rw [Amount.add?, Amount.ofNat?]
  split <;> simp <;> omega

theorem Amount.exists_add?_iff {a b : Amount} :
    (∃ c, a.add? b = some c) ↔ a.toNat + b.toNat < amountBound := by
  rw [← Option.isSome_iff_exists, Option.isSome_iff_ne_none, ne_eq, Amount.add?_eq_none_iff]
  omega

section Sorting

variable {α : Type} (key : α → Amount)

theorem Amount.decide_le_trans (a b c : α) (hab : decide (key a ≤ key b) = true)
    (hbc : decide (key b ≤ key c) = true) : decide (key a ≤ key c) = true := by
  rw [decide_eq_true_eq, Amount.le_def] at *
  omega

theorem Amount.decide_le_total (a b : α) :
    (decide (key a ≤ key b) || decide (key b ≤ key a)) = true := by
  rw [Bool.or_eq_true, decide_eq_true_eq, decide_eq_true_eq, Amount.le_def, Amount.le_def]
  omega

/-- Sorting by an amount puts elements of smaller amounts first. -/
theorem Amount.pairwise_mergeSort (xs : List α) :
    (xs.mergeSort fun a b => decide (key a ≤ key b)).Pairwise fun a b => key a ≤ key b :=
  (List.pairwise_mergeSort (Amount.decide_le_trans key) (Amount.decide_le_total key) xs).imp
    of_decide_eq_true

/-- Sorting by an amount keeps the order of elements of one amount. -/
theorem Amount.filter_mergeSort (xs : List α) (amount : Amount) :
    (xs.mergeSort fun a b => decide (key a ≤ key b)).filter (fun a => key a = amount) =
      xs.filter fun a => key a = amount := by
  have hequal : (xs.filter fun a => key a = amount).Pairwise
      fun a b => decide (key a ≤ key b) = true := by
    refine List.pairwise_of_forall_mem_list fun a ha b hb => ?_
    rw [List.mem_filter, decide_eq_true_eq] at ha hb
    rw [ha.2, hb.2]
    exact decide_eq_true (Nat.le_refl amount.toNat)
  have hsublist : (xs.filter fun a => key a = amount).Sublist
      (xs.mergeSort fun a b => decide (key a ≤ key b)) :=
    List.sublist_mergeSort (Amount.decide_le_trans key) (Amount.decide_le_total key) hequal
      List.filter_sublist
  -- elements of one amount are a part of the sorted list, and it has no more of them
  have hpart := hsublist.filter fun a => decide (key a = amount)
  rw [List.filter_filter] at hpart
  simp only [Bool.and_self] at hpart
  exact (hpart.eq_of_length ((List.mergeSort_perm xs _).filter _).length_eq.symm).symm

end Sorting

namespace TokenMap

variable {α : Type}

theorem get?_eq_none {m : TokenMap α} {token : LedgerAddress} (h : token ∉ m.keys) :
    m.get? token = none := by
  induction m with
  | nil => rfl
  | cons e rest ih =>
    obtain ⟨t, v⟩ := e
    rw [keys, List.map_cons, List.mem_cons, not_or] at h
    rw [get?, if_neg fun heq => h.1 heq.symm]
    exact ih h.2

theorem mem_of_get? {m : TokenMap α} {token : LedgerAddress} {v : α}
    (h : m.get? token = some v) : (token, v) ∈ m := by
  induction m with
  | nil => cases h
  | cons e rest ih =>
    obtain ⟨t, w⟩ := e
    rw [get?] at h
    split at h
    case isTrue heq =>
      cases h
      rw [heq]
      exact List.mem_cons_self
    case isFalse => exact List.mem_cons_of_mem _ (ih h)

theorem Ascending.nodup {m : TokenMap α} (h : m.Ascending) : m.keys.Nodup := by
  refine h.imp fun hlt heq => ?_
  subst heq
  exact Nat.lt_irrefl _ hlt

/-- An entry of an ascending map is the one that is found under its token. -/
theorem Ascending.get?_of_mem {m : TokenMap α} (hm : m.Ascending) {token : LedgerAddress} {v : α}
    (h : (token, v) ∈ m) : m.get? token = some v := by
  induction m with
  | nil => cases h
  | cons e rest ih =>
    obtain ⟨t, w⟩ := e
    rcases List.mem_cons.mp h with heq | hrest
    · cases heq
      rw [get?, if_pos rfl]
    · rw [get?, if_neg (hm.ne_of_mem_keys (List.mem_map_of_mem hrest))]
      exact ih (ascending_cons_iff.mp hm).2 hrest

end TokenMap

/-! ### Totals -/

/-- The asset holds an amount of a token. -/
def Asset.isFungibleOf (a : Asset) (token : LedgerAddress) : Bool :=
  a.isFungible && a.token = token

/-- The asset holds a single token of a contract. -/
def Asset.isSingleOf (a : Asset) (token : LedgerAddress) : Bool := a.isSingle && a.token = token

/-- The ether of a list of assets. -/
def etherTotal (assets : List Asset) : Nat := (assets.map fun a => a.eth.toNat).sum

/-- The amount of a fungible token in a list of assets. -/
def fungibleTotal (token : LedgerAddress) (assets : List Asset) : Nat :=
  ((assets.filter fun a => a.isFungibleOf token).map fun a => a.amount.toNat).sum

/-- The ids of a contract's single tokens in a list of assets, in order. -/
def singleIds (token : LedgerAddress) (assets : List Asset) : List Amount :=
  (assets.filter fun a => a.isSingleOf token).map Asset.tokenId

section Totals

variable {token : LedgerAddress} {a : Asset} {xs ys : List Asset}

@[simp] theorem etherTotal_nil : etherTotal [] = 0 := rfl

@[simp] theorem etherTotal_cons : etherTotal (a :: xs) = a.eth.toNat + etherTotal xs := rfl

@[simp] theorem etherTotal_append : etherTotal (xs ++ ys) = etherTotal xs + etherTotal ys := by
  rw [etherTotal, List.map_append, List.sum_append, etherTotal, etherTotal]

@[simp] theorem fungibleTotal_nil : fungibleTotal token [] = 0 := rfl

theorem fungibleTotal_cons :
    fungibleTotal token (a :: xs) =
      (if a.isFungibleOf token then a.amount.toNat else 0) + fungibleTotal token xs := by
  rw [fungibleTotal, List.filter_cons]
  split
  · rw [List.map_cons, List.sum_cons, fungibleTotal]
  · rw [Nat.zero_add, fungibleTotal]

@[simp] theorem fungibleTotal_append :
    fungibleTotal token (xs ++ ys) = fungibleTotal token xs + fungibleTotal token ys := by
  rw [fungibleTotal, List.filter_append, List.map_append, List.sum_append, fungibleTotal,
    fungibleTotal]

@[simp] theorem singleIds_nil : singleIds token [] = [] := rfl

theorem singleIds_cons :
    singleIds token (a :: xs) =
      if a.isSingleOf token then a.tokenId :: singleIds token xs else singleIds token xs := by
  rw [singleIds, List.filter_cons]
  split
  · rw [List.map_cons, singleIds]
  · rfl

@[simp] theorem singleIds_append :
    singleIds token (xs ++ ys) = singleIds token xs ++ singleIds token ys := by
  rw [singleIds, List.filter_append, List.map_append, singleIds, singleIds]

theorem fungibleTotal_concat (h : a.isFungibleOf token = false) :
    fungibleTotal token (xs ++ [a]) = fungibleTotal token xs := by
  rw [fungibleTotal_append, fungibleTotal_cons, h]
  rfl

theorem singleIds_concat (h : a.isSingleOf token = false) :
    singleIds token (xs ++ [a]) = singleIds token xs := by
  rw [singleIds_append, singleIds_cons, h]
  exact List.append_nil _

theorem exists_mem_concat_iff {p : Asset → Bool} :
    (∃ x ∈ xs ++ [a], p x) ↔ (∃ x ∈ xs, p x) ∨ p a := by
  simp only [List.mem_append, List.mem_singleton, or_and_right, exists_or, exists_eq_left]

theorem etherTotal_eq_zero (h : ∀ a ∈ xs, a.eth = 0) : etherTotal xs = 0 := by
  induction xs with
  | nil => rfl
  | cons a xs ih =>
    rw [List.forall_mem_cons] at h
    rw [etherTotal_cons, h.1, ih h.2, Amount.toNat_zero]

theorem fungibleTotal_eq_zero (h : ∀ a ∈ xs, a.isFungibleOf token = false) :
    fungibleTotal token xs = 0 := by
  have hnil : xs.filter (fun a => a.isFungibleOf token) = [] :=
    List.filter_eq_nil_iff.mpr fun a ha => by simp [h a ha]
  rw [fungibleTotal, hnil, List.map_nil, List.sum_nil]

/-- An asset of a token has an amount of it. -/
theorem fungibleTotal_pos (h : ∃ a ∈ xs, a.isFungibleOf token) : 0 < fungibleTotal token xs := by
  obtain ⟨a, ha, hof⟩ := h
  have hne : a.amount ≠ 0 := by
    simp only [Asset.isFungibleOf, Asset.isFungible, Bool.and_eq_true, decide_eq_true_eq] at hof
    exact hof.1.1
  have hpos : 0 < a.amount.toNat := Nat.pos_of_ne_zero (mt Amount.eq_zero_iff.mpr hne)
  obtain ⟨front, back, rfl⟩ := List.append_of_mem ha
  rw [fungibleTotal_append, fungibleTotal_cons, if_pos hof]
  omega

theorem singleIds_eq_nil (h : ∀ a ∈ xs, a.isSingleOf token = false) : singleIds token xs = [] := by
  have hnil : xs.filter (fun a => a.isSingleOf token) = [] :=
    List.filter_eq_nil_iff.mpr fun a ha => by simp [h a ha]
  rw [singleIds, hnil, List.map_nil]

theorem Asset.isSingleOf_eq_false (h : a.isFungible = true) : a.isSingleOf token = false := by
  rw [Asset.isSingleOf, Asset.isSingle_eq_false_of_isFungible h, Bool.false_and]

theorem Asset.isFungibleOf_eq_false (h : a.isSingle = true) : a.isFungibleOf token = false := by
  cases hf : a.isFungible with
  | false => rw [Asset.isFungibleOf, hf, Bool.false_and]
  | true => rw [Asset.isSingle_eq_false_of_isFungible hf] at h; cases h

/-- Assets of ether alone add nothing to the totals of tokens. -/
theorem tokenTotals_of_etherOnly (h : ∀ a ∈ xs, a.isEtherOnly = true) :
    (∀ token, fungibleTotal token xs = 0) ∧ ∀ token, singleIds token xs = [] := by
  have honly : ∀ a ∈ xs, a.isFungible = false ∧ a.isSingle = false := by
    intro a ha
    have hether := h a ha
    refine ⟨Asset.isFungible_eq_false_of_isEtherOnly hether, ?_⟩
    rw [Asset.isEtherOnly, Bool.and_eq_true, decide_eq_true_eq] at hether
    simp [Asset.isSingle, hether.2]
  refine ⟨fun token => fungibleTotal_eq_zero fun a ha => ?_,
    fun token => singleIds_eq_nil fun a ha => ?_⟩
  · rw [Asset.isFungibleOf, (honly a ha).1, Bool.false_and]
  · rw [Asset.isSingleOf, (honly a ha).2, Bool.false_and]

theorem Asset.isFungible_of_amount {eth amount : Amount} (h : amount.toNat ≠ 0) :
    Asset.isFungible ⟨eth, token, amount, 0⟩ = true := by
  rw [ne_eq, ← Amount.eq_zero_iff] at h
  simp [Asset.isFungible, h]

end Totals

/-! ### Holdings -/

namespace Holdings

/-- The holdings show the exact totals of a list of assets, and list a token exactly if some asset
holds it. -/
structure Tallies (h : Holdings) (assets : List Asset) : Prop where
  eth : h.eth.toNat = etherTotal assets
  amountOf : ∀ token, (h.amountOf token).toNat = fungibleTotal token assets
  idsOf : ∀ token, h.idsOf token = singleIds token assets
  mem_fungible : ∀ token, token ∈ h.fungible.keys ↔ ∃ a ∈ assets, a.isFungibleOf token
  mem_single : ∀ token, token ∈ h.single.keys ↔ ∃ a ∈ assets, a.isSingleOf token
  fungible_ascending : h.fungible.Ascending
  single_ascending : h.single.Ascending

/-- No exact total of a list of assets exceeds 256 bits. -/
def Fits (assets : List Asset) : Prop :=
  etherTotal assets < amountBound ∧ ∀ token, fungibleTotal token assets < amountBound

theorem Fits.of_append {xs ys : List Asset} (h : Fits (xs ++ ys)) : Fits xs := by
  refine ⟨?_, fun token => ?_⟩
  · have hether := h.1
    rw [etherTotal_append] at hether
    omega
  · have hfungible := h.2 token
    rw [fungibleTotal_append] at hfungible
    omega

theorem Tallies.fits {h : Holdings} {assets : List Asset} (ht : h.Tallies assets) :
    Fits assets :=
  ⟨ht.eth ▸ h.eth.isLt, fun token => ht.amountOf token ▸ (h.amountOf token).isLt⟩

theorem tallies_empty : empty.Tallies [] where
  eth := rfl
  amountOf _ := rfl
  idsOf _ := rfl
  mem_fungible _ := by simp [empty, TokenMap.keys]
  mem_single _ := by simp [empty, TokenMap.keys]
  fungible_ascending := List.Pairwise.nil
  single_ascending := List.Pairwise.nil

section Steps

variable {h h' : Holdings} {assets : List Asset} {a : Asset}

theorem amountOf_set_fungible (h : Holdings) (token other : LedgerAddress) (total : Amount) :
    Holdings.amountOf { h with fungible := h.fungible.set token total } other =
      if token = other then total else h.amountOf other := by
  by_cases heq : token = other
  · subst heq
    rw [Holdings.amountOf, TokenMap.get?_set_self, if_pos rfl, Option.getD_some]
  · rw [Holdings.amountOf, TokenMap.get?_set_of_ne _ _ (Ne.symm heq), if_neg heq, Holdings.amountOf]

theorem idsOf_set_single (h : Holdings) (token other : LedgerAddress) (ids : List Amount) :
    Holdings.idsOf { h with single := h.single.set token ids } other =
      if token = other then ids else h.idsOf other := by
  by_cases heq : token = other
  · subst heq
    rw [Holdings.idsOf, TokenMap.get?_set_self, if_pos rfl, Option.getD_some]
  · rw [Holdings.idsOf, TokenMap.get?_set_of_ne _ _ (Ne.symm heq), if_neg heq, Holdings.idsOf]

/-- What adding an asset does: the ether grows, and at most one token position. -/
theorem addAsset_eq_ok_iff :
    addAsset h a = .ok h' ↔
      ∃ eth, h.eth.add? a.eth = some eth ∧
        ((a.isFungible = true ∧ ∃ total, (h.amountOf a.token).add? a.amount = some total ∧
            h' = { h with eth, fungible := h.fungible.set a.token total }) ∨
          (a.isFungible = false ∧ a.isSingle = true ∧
            h' = { h with eth, single := h.single.set a.token (h.idsOf a.token ++ [a.tokenId]) }) ∨
          (a.isFungible = false ∧ a.isSingle = false ∧ h' = { h with eth })) := by
  have hamount : ∀ eth, Holdings.amountOf { h with eth } a.token = h.amountOf a.token :=
    fun _ => rfl
  have hids : ∀ eth, Holdings.idsOf { h with eth } a.token = h.idsOf a.token := fun _ => rfl
  unfold addAsset addPosition
  cases heth : h.eth.add? a.eth with
  | none => simp
  | some eth =>
    cases hf : a.isFungible with
    | true =>
      cases htotal : (h.amountOf a.token).add? a.amount with
      | none => simp [hamount, htotal]
      | some total => simp [hamount, htotal, @eq_comm _ h']
    | false =>
      cases hs : a.isSingle with
      | true => simp [hids, @eq_comm _ h']
      | false => simp [@eq_comm _ h']

/-- The amount of a fungible token is added to its entry. -/
theorem Tallies.fungible_concat (ht : h.Tallies assets) {total : Amount}
    (hf : a.isFungible = true) (htotal : (h.amountOf a.token).add? a.amount = some total)
    (token : LedgerAddress) :
    (Holdings.amountOf { h with fungible := h.fungible.set a.token total } token).toNat =
        fungibleTotal token (assets ++ [a]) ∧
      (token ∈ (h.fungible.set a.token total).keys ↔
        ∃ x ∈ assets ++ [a], x.isFungibleOf token) := by
  constructor
  · rw [amountOf_set_fungible, fungibleTotal_append, fungibleTotal_cons, ← ht.amountOf token,
      Asset.isFungibleOf, hf, Bool.true_and]
    by_cases heq : a.token = token
    · subst heq
      simp [Amount.add?_eq_some_iff.mp htotal]
    · simp [heq]
  · rw [TokenMap.mem_keys_set, ht.mem_fungible token, exists_mem_concat_iff, Asset.isFungibleOf,
      hf, Bool.true_and, decide_eq_true_eq, eq_comm, or_comm]

/-- The id of a single token is added behind those of its contract. -/
theorem Tallies.single_concat (ht : h.Tallies assets) (hs : a.isSingle = true)
    (token : LedgerAddress) :
    Holdings.idsOf { h with single := h.single.set a.token (h.idsOf a.token ++ [a.tokenId]) }
        token = singleIds token (assets ++ [a]) ∧
      (token ∈ (h.single.set a.token (h.idsOf a.token ++ [a.tokenId])).keys ↔
        ∃ x ∈ assets ++ [a], x.isSingleOf token) := by
  constructor
  · rw [idsOf_set_single, singleIds_append, singleIds_cons, ← ht.idsOf token, Asset.isSingleOf,
      hs, Bool.true_and]
    by_cases heq : a.token = token
    · subst heq
      simp
    · simp [heq]
  · rw [TokenMap.mem_keys_set, ht.mem_single token, exists_mem_concat_iff, Asset.isSingleOf, hs,
      Bool.true_and, decide_eq_true_eq, eq_comm, or_comm]

theorem Tallies.fungible_concat_of_not (ht : h.Tallies assets) (token : LedgerAddress)
    (ha : a.isFungibleOf token = false) :
    (h.amountOf token).toNat = fungibleTotal token (assets ++ [a]) ∧
      (token ∈ h.fungible.keys ↔ ∃ x ∈ assets ++ [a], x.isFungibleOf token) := by
  rw [fungibleTotal_concat ha, exists_mem_concat_iff, ha, or_iff_left Bool.false_ne_true]
  exact ⟨ht.amountOf token, ht.mem_fungible token⟩

theorem Tallies.single_concat_of_not (ht : h.Tallies assets) (token : LedgerAddress)
    (ha : a.isSingleOf token = false) :
    h.idsOf token = singleIds token (assets ++ [a]) ∧
      (token ∈ h.single.keys ↔ ∃ x ∈ assets ++ [a], x.isSingleOf token) := by
  rw [singleIds_concat ha, exists_mem_concat_iff, ha, or_iff_left Bool.false_ne_true]
  exact ⟨ht.idsOf token, ht.mem_single token⟩

/-- Adding an asset keeps exact totals exact. -/
theorem Tallies.add (ht : h.Tallies assets) (hadd : addAsset h a = .ok h') :
    h'.Tallies (assets ++ [a]) := by
  obtain ⟨eth, heth, hcases⟩ := addAsset_eq_ok_iff.mp hadd
  have hether : eth.toNat = etherTotal (assets ++ [a]) := by
    rw [Amount.add?_eq_some_iff.mp heth, ht.eth]
    simp
  -- one case for each kind of position; the map of the other kind is left as it is
  rcases hcases with ⟨hf, total, htotal, rfl⟩ | ⟨hf, hs, rfl⟩ | ⟨hf, hs, rfl⟩
  · have hfungible := ht.fungible_concat hf htotal
    have hsingle t := ht.single_concat_of_not t (Asset.isSingleOf_eq_false hf)
    exact ⟨hether, fun t => (hfungible t).1, fun t => (hsingle t).1, fun t => (hfungible t).2,
      fun t => (hsingle t).2, ht.fungible_ascending.set _ _, ht.single_ascending⟩
  · have hfungible t := ht.fungible_concat_of_not t (Asset.isFungibleOf_eq_false hs)
    have hsingle := ht.single_concat hs
    exact ⟨hether, fun t => (hfungible t).1, fun t => (hsingle t).1, fun t => (hfungible t).2,
      fun t => (hsingle t).2, ht.fungible_ascending, ht.single_ascending.set _ _⟩
  · have hnone t : a.isFungibleOf t = false ∧ a.isSingleOf t = false := by
      simp [Asset.isFungibleOf, Asset.isSingleOf, hf, hs]
    have hfungible t := ht.fungible_concat_of_not t (hnone t).1
    have hsingle t := ht.single_concat_of_not t (hnone t).2
    exact ⟨hether, fun t => (hfungible t).1, fun t => (hsingle t).1, fun t => (hfungible t).2,
      fun t => (hsingle t).2, ht.fungible_ascending, ht.single_ascending⟩

/-- An asset can be added to exact totals exactly if the new totals fit. -/
theorem Tallies.exists_addAsset_iff (ht : h.Tallies assets) :
    (∃ h', addAsset h a = .ok h') ↔ Fits (assets ++ [a]) := by
  constructor
  · rintro ⟨h', hadd⟩
    exact (ht.add hadd).fits
  · rintro ⟨hether, hfungible⟩
    obtain ⟨eth, heth⟩ : ∃ eth, h.eth.add? a.eth = some eth := by
      rw [Amount.exists_add?_iff, ht.eth]
      simpa using hether
    cases hf : a.isFungible with
    | true =>
      obtain ⟨total, htotal⟩ : ∃ total, (h.amountOf a.token).add? a.amount = some total := by
        rw [Amount.exists_add?_iff, ht.amountOf]
        have hlt := hfungible a.token
        rw [fungibleTotal_append, fungibleTotal_cons, Asset.isFungibleOf, hf] at hlt
        simpa using hlt
      exact ⟨_, addAsset_eq_ok_iff.mpr ⟨eth, heth, .inl ⟨hf, total, htotal, rfl⟩⟩⟩
    | false =>
      cases hs : a.isSingle with
      | true => exact ⟨_, addAsset_eq_ok_iff.mpr ⟨eth, heth, .inr (.inl ⟨hf, hs, rfl⟩)⟩⟩
      | false => exact ⟨_, addAsset_eq_ok_iff.mpr ⟨eth, heth, .inr (.inr ⟨hf, hs, rfl⟩)⟩⟩

end Steps

/-! ### Runs -/

theorem Tallies.foldlM {more : List Asset} {h h' : Holdings} {assets : List Asset}
    (ht : h.Tallies assets) (hrun : more.foldlM addAsset h = .ok h') :
    h'.Tallies (assets ++ more) := by
  induction more generalizing h assets with
  | nil =>
    cases hrun
    rwa [List.append_nil]
  | cons a more ih =>
    rw [List.foldlM_cons] at hrun
    obtain ⟨next, hadd, hrun⟩ := Except.bind_eq_ok_iff.mp hrun
    have happend : assets ++ a :: more = (assets ++ [a]) ++ more := by simp
    rw [happend]
    exact ih (ht.add hadd) hrun

/-- The totals of a list of assets are exact. -/
theorem tallies_of_ofAssets {assets : List Asset} {h : Holdings} (hof : ofAssets assets = .ok h) :
    h.Tallies assets :=
  tallies_empty.foldlM hof

theorem Tallies.exists_foldlM_iff {more : List Asset} {h : Holdings} {assets : List Asset}
    (ht : h.Tallies assets) :
    (∃ h', more.foldlM addAsset h = .ok h') ↔ Fits (assets ++ more) := by
  constructor
  · rintro ⟨h', hrun⟩
    exact (ht.foldlM hrun).fits
  · intro hfits
    -- a front of what fits fits too, so no addition on the way fails
    induction more generalizing h assets with
    | nil => exact ⟨h, rfl⟩
    | cons a more ih =>
      have happend : assets ++ a :: more = (assets ++ [a]) ++ more := by simp
      rw [happend] at hfits
      obtain ⟨next, hadd⟩ := ht.exists_addAsset_iff.mpr hfits.of_append
      obtain ⟨h', hrun⟩ := ih (ht.add hadd) hfits
      exact ⟨h', by rw [List.foldlM_cons]; exact Except.bind_eq_ok_iff.mpr ⟨next, hadd, hrun⟩⟩

theorem ofNotes_map {α : Type} (note : α → Note) (xs : List α) :
    ofNotes (xs.map note) = ofAssets (xs.map fun x => (note x).asset) := by
  rw [ofNotes, List.map_map]
  rfl

/-- The totals of a list of assets exist exactly if no exact total exceeds 256 bits. -/
theorem exists_ofAssets_iff {assets : List Asset} :
    (∃ h, ofAssets assets = .ok h) ↔ Fits assets :=
  tallies_empty.exists_foldlM_iff

end Holdings

end ShieldedWallet
