/-
What the selection of token notes selects.

A selection parts the notes at hand into notes chosen and notes left.  For
fungible tokens the chosen notes reach the amounts asked for and hold no other
token; for single tokens their ids are the ids asked for.

* `takeUntil_ok` — a run from the front that reaches an amount, and no shorter
  one does;
* `Selection.followedBy_eq_ok_iff` — one selection after another one, as the
  selections for several tokens are made;
* `selectFungible_ok`, `takeSingles_ok` — the selection for one token;
* `Builder.selectTokens_ok` — the selection for all tokens of the holdings
  asked for.

Design notes: the surplus of a fungible token is not bounded here, so the walk
over the tokens needs no order; only for the ids of single tokens it matters
that no token comes twice.
-/
import ShieldedWallet.Plan.Builder
import ShieldedWallet.Proofs.Totals

namespace ShieldedWallet

/-- The assets of a list of notes. -/
def assetsOf (notes : List Utxo) : List Asset := notes.map Utxo.asset

@[simp] theorem assetsOf_nil : assetsOf [] = [] := rfl

@[simp] theorem assetsOf_cons (u : Utxo) (us : List Utxo) :
    assetsOf (u :: us) = u.asset :: assetsOf us := rfl

@[simp] theorem assetsOf_append (us vs : List Utxo) :
    assetsOf (us ++ vs) = assetsOf us ++ assetsOf vs := List.map_append

theorem mem_assetsOf {a : Asset} {us : List Utxo} : a ∈ assetsOf us ↔ ∃ u ∈ us, u.asset = a :=
  List.mem_map

/-- The selection parts the notes at hand. -/
def Selection.Parts (s : Selection) (available : List Utxo) : Prop :=
  (s.chosen ++ s.left).Perm available

theorem Selection.Parts.append {s t : Selection} {available : List Utxo} (hs : s.Parts available)
    (ht : t.Parts s.left) : Selection.Parts ⟨s.chosen ++ t.chosen, t.left⟩ available := by
  rw [Selection.Parts, List.append_assoc]
  exact (List.Perm.append_left _ ht).trans hs

/-- A selection and another one from the notes that it leaves. -/
theorem Selection.followedBy_eq_ok_iff {x : Except BuildError Selection}
    (f : List Utxo → Except BuildError Selection) {s : Selection} :
    (do let first ← x
        let others ← f first.left
        return { others with chosen := first.chosen ++ others.chosen }) = .ok s ↔
      ∃ first others : Selection, x = .ok first ∧ f first.left = .ok others ∧
        s = ⟨first.chosen ++ others.chosen, others.left⟩ := by
  constructor
  · intro h
    obtain ⟨first, hfirst, h⟩ := Except.bind_eq_ok_iff.mp h
    obtain ⟨others, hothers, h⟩ := Except.bind_eq_ok_iff.mp h
    exact ⟨first, others, hfirst, hothers, (Except.ok.inj h).symm⟩
  · rintro ⟨first, others, hfirst, hothers, rfl⟩
    exact Except.bind_eq_ok_iff.mpr ⟨first, hfirst,
      Except.bind_eq_ok_iff.mpr ⟨others, hothers, rfl⟩⟩

theorem holdsFungible_iff {token : LedgerAddress} {u : Utxo} :
    holdsFungible token u = true ↔ u.asset.isFungible = true ∧ u.asset.token = token := by
  rw [holdsFungible, Bool.and_eq_true, decide_eq_true_eq]

theorem holdsSingle_iff {token : LedgerAddress} {u : Utxo} :
    holdsSingle token u = true ↔ u.asset.isSingle = true ∧ u.asset.token = token := by
  rw [holdsSingle, Bool.and_eq_true, decide_eq_true_eq]

/-! ### Fungible tokens -/

/-- The amounts of a list of notes, whatever their tokens. -/
def amountTotal (us : List Utxo) : Nat := (us.map fun u => u.asset.amount.toNat).sum

@[simp] theorem amountTotal_cons (u : Utxo) (us : List Utxo) :
    amountTotal (u :: us) = u.asset.amount.toNat + amountTotal us := rfl

theorem fungibleTotal_eq_amountTotal (token : LedgerAddress) (us : List Utxo) :
    fungibleTotal token (assetsOf us) = amountTotal (us.filter (holdsFungible token)) := by
  rw [fungibleTotal, assetsOf, List.filter_map, List.map_map]
  rfl

/-- The run taken reaches the amount asked for or takes all there is, and no shorter run reaches
it. -/
theorem takeUntil_ok {asked gathered total : Amount} {us run behind : List Utxo}
    (h : takeUntil asked gathered us = .ok (run, total, behind)) :
    us = run ++ behind ∧ total.toNat = gathered.toNat + amountTotal run ∧
      (asked ≤ total ∨ behind = []) ∧
      ∀ k < run.length, gathered.toNat + amountTotal (run.take k) < asked.toNat := by
  induction us generalizing gathered run with
  | nil =>
    cases h
    exact ⟨rfl, rfl, .inr rfl, fun k hk => absurd hk (Nat.not_lt_zero k)⟩
  | cons u us ih =>
    rw [takeUntil] at h
    split at h
    case isTrue hle =>
      cases h
      exact ⟨rfl, rfl, .inl hle, fun k hk => absurd hk (Nat.not_lt_zero k)⟩
    case isFalse hlt =>
      cases hadd : gathered.add? u.asset.amount with
      | none => simp [hadd] at h
      | some next =>
        simp only [hadd] at h
        obtain ⟨⟨rest, reached, left⟩, hrest, h⟩ := Except.bind_eq_ok_iff.mp h
        simp only [Except.pure_eq_ok_iff, Prod.mk.injEq] at h
        obtain ⟨rfl, rfl, rfl⟩ := h
        obtain ⟨hsplit, htotal, hreach, hshort⟩ := ih hrest
        have hnext := Amount.add?_eq_some_iff.mp hadd
        refine ⟨by rw [hsplit, List.cons_append], ?_, hreach, fun k hk => ?_⟩
        -- a shorter run is empty, where the walk went on, or a shorter run of the rest
        · rw [htotal, hnext, amountTotal_cons, Nat.add_assoc]
        · cases k with
          | zero =>
            rw [Amount.le_def] at hlt
            simpa [amountTotal] using hlt
          | succ k =>
            have hk' := hshort k (by simpa using hk)
            rw [List.take_succ_cons, amountTotal_cons]
            omega

section Select

variable {available : List Utxo} {token : LedgerAddress} {asked : Amount} {s : Selection}

/-- A selection for one token is a walk along its notes that reaches the amount asked for. -/
theorem selectFungible_eq_ok_iff :
    selectFungible available token asked = .ok s ↔
      ∃ (total : Amount) (unused : List Utxo),
        takeUntil asked 0 (fungibleCandidates available token) = .ok (s.chosen, total, unused) ∧
          asked ≤ total ∧
            s.left = (available.filter fun u => !holdsFungible token u) ++ unused := by
  constructor
  · intro h
    obtain ⟨⟨run, total, unused⟩, hrun, h⟩ := Except.bind_eq_ok_iff.mp h
    dsimp only at h
    split at h
    case isTrue => cases h
    case isFalse hreach =>
      cases h
      exact ⟨total, unused, hrun, Nat.le_of_not_lt hreach, rfl⟩
  · obtain ⟨chosen, left⟩ := s
    rintro ⟨total, unused, hrun, hreach, rfl⟩
    exact Except.bind_eq_ok_iff.mpr ⟨_, hrun, if_neg (Nat.not_lt_of_le hreach)⟩

/-- A selection for one token parts the notes, takes notes of that token only, and reaches the
amount asked for. -/
theorem selectFungible_ok (h : selectFungible available token asked = .ok s) :
    s.Parts available ∧ (∀ u ∈ s.chosen, holdsFungible token u = true) ∧
      asked.toNat ≤ fungibleTotal token (assetsOf s.chosen) := by
  obtain ⟨total, unused, hrun, hreach, hleft⟩ := selectFungible_eq_ok_iff.mp h
  obtain ⟨hsplit, htotal, -, -⟩ := takeUntil_ok hrun
  have hperm : (s.chosen ++ unused).Perm (available.filter (holdsFungible token)) :=
    hsplit ▸ List.mergeSort_perm _ _
  have hholds : ∀ u ∈ s.chosen, holdsFungible token u = true := fun u hu =>
    (List.mem_filter.mp (hperm.mem_iff.mp (List.mem_append_left _ hu))).2
  refine ⟨?_, hholds, ?_⟩
  · -- the unused notes move behind the notes of other tokens
    have hmove : (s.chosen ++ ((available.filter fun u => !holdsFungible token u) ++ unused)).Perm
        ((s.chosen ++ unused) ++ available.filter fun u => !holdsFungible token u) := by
      rw [List.append_assoc]
      exact List.Perm.append_left _ List.perm_append_comm
    rw [Selection.Parts, hleft]
    exact hmove.trans ((hperm.append_right _).trans (List.filter_append_perm _ _))
  · rw [fungibleTotal_eq_amountTotal, List.filter_eq_self.mpr hholds]
    rw [Amount.le_def, htotal, Amount.toNat_zero, Nat.zero_add] at hreach
    exact hreach

end Select

/-! ### Single tokens -/

/-- Taking an element out by exchange with the last one takes out that element only. -/
theorem swapRemove_perm {α : Type} {xs : List α} {i : Nat} {x : α} (h : xs[i]? = some x) :
    (x :: swapRemove xs i).Perm xs := by
  obtain ⟨front, back, rfl, rfl⟩ : ∃ front back, xs = front ++ x :: back ∧ i = front.length := by
    obtain ⟨hi, rfl⟩ := List.getElem?_eq_some_iff.mp h
    exact ⟨xs.take i, xs.drop (i + 1), by simp, by simp; omega⟩
  -- the element taken out may itself be the last one
  rcases List.eq_nil_or_concat back with rfl | ⟨mid, last, rfl⟩
  · have hlast : (front ++ [x]).getLast? = some x := List.getLast?_concat
    have hset : (front ++ [x]).set front.length x = front ++ [x] := by
      rw [List.set_append_right _ _ (Nat.le_refl _), Nat.sub_self, List.set_cons_zero]
    rw [swapRemove, hlast]
    show (x :: ((front ++ [x]).set front.length x).dropLast).Perm _
    rw [hset, List.dropLast_concat]
    exact (List.perm_append_singleton x front).symm
  · have hassoc : front ++ x :: mid.concat last = (front ++ x :: mid) ++ [last] := by simp
    have hset : ((front ++ x :: mid) ++ [last]).set front.length last =
        (front ++ last :: mid) ++ [last] := by
      simp
    rw [hassoc, swapRemove, List.getLast?_concat]
    show (x :: (((front ++ x :: mid) ++ [last]).set front.length last).dropLast).Perm _
    rw [hset, List.dropLast_concat]
    have hfront : (x :: (front ++ last :: mid)).Perm (front ++ x :: last :: mid) :=
      List.perm_middle.symm
    have hback : (last :: mid).Perm (mid ++ [last]) := (List.perm_append_singleton last mid).symm
    refine hfront.trans ?_
    rw [List.append_assoc]
    exact List.Perm.append_left front (List.Perm.cons x hback)

/-- A selection of single tokens parts the notes and takes, in order, a note of the contract for
each id asked for. -/
theorem takeSingles_ok {token : LedgerAddress} {available : List Utxo} {ids : List Amount}
    {s : Selection} (h : takeSingles token available ids = .ok s) :
    s.Parts available ∧ (∀ u ∈ s.chosen, holdsSingle token u = true) ∧
      s.chosen.map (fun u => u.asset.tokenId) = ids := by
  induction ids generalizing available s with
  | nil =>
    cases h
    exact ⟨.refl _, fun u hu => absurd hu List.not_mem_nil, rfl⟩
  | cons id ids ih =>
    rw [takeSingles] at h
    split at h
    case h_1 => cases h
    case h_2 i hi =>
      split at h
      case h_1 => cases h
      case h_2 u hu =>
        obtain ⟨t, ht, h⟩ := Except.bind_eq_ok_iff.mp h
        cases h
        obtain ⟨hparts, hholds, hids⟩ := ih ht
        obtain ⟨hlt, hfound, -⟩ := List.findIdx?_eq_some_iff_getElem.mp hi
        rw [(List.getElem?_eq_some_iff.mp hu).2, Bool.and_eq_true, decide_eq_true_eq] at hfound
        refine ⟨?_, ?_, ?_⟩
        · exact (List.Perm.cons _ hparts).trans (swapRemove_perm hu)
        · exact List.forall_mem_cons.mpr ⟨hfound.1, hholds⟩
        · rw [List.map_cons, hfound.2, hids]

theorem selectSingles_ok {token : LedgerAddress} {available : List Utxo} {ids : List Amount}
    {s : Selection} (h : selectSingles available token ids = .ok s) :
    s.Parts available ∧ (∀ u ∈ s.chosen, holdsSingle token u = true) ∧
      s.chosen.map (fun u => u.asset.tokenId) = ids := by
  rw [selectSingles] at h
  split at h
  case isTrue => cases h
  case isFalse => exact takeSingles_ok h

/-! ### All tokens -/

namespace Builder

theorem selectFungibles_cons_eq_ok_iff {token : LedgerAddress} {amount : Amount}
    {rest : TokenMap Amount} {available : List Utxo} {s : Selection} :
    selectFungibles available ((token, amount) :: rest) = .ok s ↔
      ∃ first others : Selection, selectFungible available token amount = .ok first ∧
        selectFungibles first.left rest = .ok others ∧
          s = ⟨first.chosen ++ others.chosen, others.left⟩ :=
  Selection.followedBy_eq_ok_iff fun left => selectFungibles left rest

/-- The amounts of all fungible tokens asked for are reached, by notes of these tokens only. -/
theorem selectFungibles_ok {asked : TokenMap Amount} {available : List Utxo} {s : Selection}
    (h : selectFungibles available asked = .ok s) :
    s.Parts available ∧ (∀ u ∈ s.chosen, ∃ token ∈ asked.keys, holdsFungible token u = true) ∧
      ∀ e ∈ asked, e.2.toNat ≤ fungibleTotal e.1 (assetsOf s.chosen) := by
  induction asked generalizing available s with
  | nil =>
    cases h
    exact ⟨.refl _, fun u hu => absurd hu List.not_mem_nil, fun e he => absurd he List.not_mem_nil⟩
  | cons e rest ih =>
    obtain ⟨token, amount⟩ := e
    obtain ⟨first, others, hfirst, hothers, rfl⟩ := selectFungibles_cons_eq_ok_iff.mp h
    obtain ⟨hparts, hholds, hreach⟩ := selectFungible_ok hfirst
    obtain ⟨hparts', hholds', hreach'⟩ := ih hothers
    refine ⟨hparts.append hparts', fun u hu => ?_, fun e he => ?_⟩
    · rcases List.mem_append.mp hu with hu | hu
      · exact ⟨token, List.mem_cons_self, hholds u hu⟩
      · obtain ⟨t, ht, hu⟩ := hholds' u hu
        exact ⟨t, List.mem_cons_of_mem token ht, hu⟩
    · show e.2.toNat ≤ fungibleTotal e.1 (assetsOf (first.chosen ++ others.chosen))
      rw [assetsOf_append, fungibleTotal_append]
      rcases List.mem_cons.mp he with rfl | he
      · exact Nat.le_add_right_of_le hreach
      · exact Nat.le_add_left_of_le (hreach' e he)

theorem singleIds_assetsOf {token : LedgerAddress} {us : List Utxo}
    (h : ∀ u ∈ us, holdsSingle token u = true) (other : LedgerAddress) :
    singleIds other (assetsOf us) =
      if token = other then us.map (fun u => u.asset.tokenId) else [] := by
  induction us with
  | nil => simp
  | cons u us ih =>
    have hu := holdsSingle_iff.mp (h u List.mem_cons_self)
    rw [assetsOf_cons, singleIds_cons, ih fun v hv => h v (List.mem_cons_of_mem u hv),
      Asset.isSingleOf, hu.1, hu.2, Bool.true_and]
    by_cases heq : token = other <;> simp [heq]

theorem selectAllSingles_cons_eq_ok_iff {token : LedgerAddress} {ids : List Amount}
    {rest : TokenMap (List Amount)} {available : List Utxo} {s : Selection} :
    selectAllSingles available ((token, ids) :: rest) = .ok s ↔
      ∃ first others : Selection, selectSingles available token ids = .ok first ∧
        selectAllSingles first.left rest = .ok others ∧
          s = ⟨first.chosen ++ others.chosen, others.left⟩ :=
  Selection.followedBy_eq_ok_iff fun left => selectAllSingles left rest

/-- The single tokens taken are those asked for, in the order asked for. -/
theorem selectAllSingles_ok {asked : TokenMap (List Amount)} {available : List Utxo}
    {s : Selection} (hasc : asked.Ascending) (h : selectAllSingles available asked = .ok s) :
    s.Parts available ∧ (∀ u ∈ s.chosen, u.asset.isSingle = true) ∧
      ∀ token, singleIds token (assetsOf s.chosen) = (asked.get? token).getD [] := by
  induction asked generalizing available s with
  | nil =>
    cases h
    exact ⟨.refl _, fun u hu => absurd hu List.not_mem_nil, fun _ => rfl⟩
  | cons e rest ih =>
    obtain ⟨token, ids⟩ := e
    obtain ⟨first, others, hfirst, hothers, rfl⟩ := selectAllSingles_cons_eq_ok_iff.mp h
    -- no later entry asks for this token again
    have hfresh : token ∉ TokenMap.keys rest := fun hmem => hasc.ne_of_mem_keys hmem rfl
    obtain ⟨hparts, hholds, hids⟩ := selectSingles_ok hfirst
    obtain ⟨hparts', hsingle', hids'⟩ := ih (TokenMap.ascending_cons_iff.mp hasc).2 hothers
    refine ⟨hparts.append hparts', fun u hu => ?_, fun other => ?_⟩
    · rcases List.mem_append.mp hu with hu | hu
      · exact (holdsSingle_iff.mp (hholds u hu)).1
      · exact hsingle' u hu
    · show singleIds other (assetsOf (first.chosen ++ others.chosen)) = _
      rw [assetsOf_append, singleIds_append, singleIds_assetsOf hholds, hids', hids, TokenMap.get?]
      by_cases heq : token = other
      · subst heq
        simp [TokenMap.get?_eq_none hfresh]
      · simp [heq]

/-- Notes chosen for holdings asked for: enough of each fungible token and none of any other, and
the very ids of single tokens. -/
structure Covers (chosen : List Utxo) (asked : Holdings) : Prop where
  enough : ∀ token, (asked.amountOf token).toNat ≤ fungibleTotal token (assetsOf chosen)
  only : ∀ token, token ∉ asked.fungible.keys → fungibleTotal token (assetsOf chosen) = 0
  ids : ∀ token, singleIds token (assetsOf chosen) = asked.idsOf token

theorem selectTokens_eq_ok_iff {asked : Holdings} {available : List Utxo} {s : Selection} :
    selectTokens available asked = .ok s ↔
      ∃ coins singles : Selection, selectFungibles available asked.fungible = .ok coins ∧
        selectAllSingles coins.left asked.single = .ok singles ∧
          s = ⟨coins.chosen ++ singles.chosen, singles.left⟩ :=
  Selection.followedBy_eq_ok_iff fun left => selectAllSingles left asked.single

theorem selectTokens_ok {asked : Holdings} {available : List Utxo} {s : Selection}
    {requested : List Asset} (hasked : asked.Tallies requested)
    (h : selectTokens available asked = .ok s) :
    s.Parts available ∧ Covers s.chosen asked := by
  obtain ⟨coins, singles, hcoins, hsingles, rfl⟩ := selectTokens_eq_ok_iff.mp h
  obtain ⟨hparts, hholds, hreach⟩ := selectFungibles_ok hcoins
  obtain ⟨hparts', hsingle, hids⟩ := selectAllSingles_ok hasked.single_ascending hsingles
  -- neither selection adds to what the other one is asked for
  have hcoinIds : ∀ token, singleIds token (assetsOf coins.chosen) = [] := fun token =>
    singleIds_eq_nil fun a ha => by
      obtain ⟨u, hu, rfl⟩ := mem_assetsOf.mp ha
      obtain ⟨t, -, hu⟩ := hholds u hu
      exact Asset.isSingleOf_eq_false (holdsFungible_iff.mp hu).1
  have hsingleAmounts : ∀ token, fungibleTotal token (assetsOf singles.chosen) = 0 := fun token =>
    fungibleTotal_eq_zero fun a ha => by
      obtain ⟨u, hu, rfl⟩ := mem_assetsOf.mp ha
      exact Asset.isFungibleOf_eq_false (hsingle u hu)
  refine ⟨hparts.append hparts', fun token => ?_, fun token hnot => ?_, fun token => ?_⟩
  · rw [assetsOf_append, fungibleTotal_append, hsingleAmounts, Nat.add_zero, Holdings.amountOf]
    cases hget : asked.fungible.get? token with
    | none => exact Nat.zero_le _
    | some amount => exact hreach _ (TokenMap.mem_of_get? hget)
  · rw [assetsOf_append, fungibleTotal_append, hsingleAmounts, Nat.add_zero]
    refine fungibleTotal_eq_zero fun a ha => ?_
    obtain ⟨u, hu, rfl⟩ := mem_assetsOf.mp ha
    obtain ⟨t, ht, hu⟩ := hholds u hu
    rw [Asset.isFungibleOf, Bool.and_eq_false_iff, decide_eq_false_iff_not]
    refine .inr fun heq => hnot ?_
    rw [← heq, (holdsFungible_iff.mp hu).2]
    exact ht
  · rw [assetsOf_append, singleIds_append, hcoinIds, List.nil_append, hids]
    rfl

end Builder

end ShieldedWallet
