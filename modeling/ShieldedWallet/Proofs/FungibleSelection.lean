/-
The shortest run of a fungible token.

The notes of a token are lined up in ascending order of their amounts, and
notes of one amount keep the order in which they are at hand.  What is chosen
is the shortest run from the front that makes up the amount asked for; all
other notes stay available.

* `AscendingOrder` — the order, which is that of the candidates
  (`fungibleCandidates_order`);
* `ShortestRun` — a run that reaches an amount where no shorter one does;
* `takeUntil_of_short`, `takeUntil_of_shortestRun` — the two ways a walk along
  the candidates can end;
* `selectFungible_exact` — which notes are chosen, and which failure is
  reported, for any notes at hand and any amount asked for.

Design notes: a run that is too short is worth less than the amount asked for,
which fits 256 bits.  So only the last note of the shortest run can overflow the
total, and a lack of notes is reported with their exact total.
-/
import ShieldedWallet.Proofs.Conservation

namespace ShieldedWallet

open Builder (looseNote)

/-! ### Ascending order -/

/-- The notes in ascending order of their amounts; those of one amount keep their order. -/
structure AscendingOrder (order notes : List Utxo) : Prop where
  ascending : order.Pairwise fun u v => u.asset.amount ≤ v.asset.amount
  stable : ∀ amount : Amount, order.filter (fun u => u.asset.amount = amount) =
    notes.filter fun u => u.asset.amount = amount

theorem AscendingOrder.perm {order notes : List Utxo} (h : AscendingOrder order notes) :
    order.Perm notes := by
  refine List.perm_iff_count.mpr fun u => ?_
  -- a note is counted among those of its own amount
  have hcount : ∀ us : List Utxo,
      (us.filter fun v => v.asset.amount = u.asset.amount).count u = us.count u := fun us =>
    List.count_filter (decide_eq_true rfl)
  rw [← hcount order, h.stable, hcount]

/-- Notes can be lined up in ascending order in one way only. -/
theorem AscendingOrder.unique {order other notes : List Utxo} (h : AscendingOrder order notes)
    (h' : AscendingOrder other notes) : order = other := by
  have hstable (amount : Amount) : order.filter (fun u => u.asset.amount = amount) =
      other.filter fun u => u.asset.amount = amount :=
    (h.stable amount).trans (h'.stable amount).symm
  have hperm : order.Perm other := h.perm.trans h'.perm.symm
  have hasc := h.ascending
  have hasc' := h'.ascending
  clear h h'
  induction order generalizing other with
  | nil => exact (List.nil_perm.mp hperm).symm
  | cons u us ih =>
    cases other with
    | nil => exact absurd hperm.length_eq (Nat.succ_ne_zero _)
    | cons v vs =>
      rw [List.pairwise_cons] at hasc hasc'
      -- neither head is of a larger amount than the other, so they are the first of one amount
      have hle : u.asset.amount ≤ v.asset.amount := by
        rcases List.mem_cons.mp (hperm.mem_iff.mpr List.mem_cons_self) with rfl | hv
        · exact Nat.le_refl _
        · exact hasc.1 v hv
      have hge : v.asset.amount ≤ u.asset.amount := by
        rcases List.mem_cons.mp (hperm.mem_iff.mp List.mem_cons_self) with rfl | hu
        · exact Nat.le_refl _
        · exact hasc'.1 u hu
      have hamount : v.asset.amount = u.asset.amount := Amount.ext (Nat.le_antisymm hge hle)
      have hhead := hstable u.asset.amount
      rw [List.filter_cons, List.filter_cons, if_pos (decide_eq_true rfl),
        if_pos (decide_eq_true hamount)] at hhead
      obtain ⟨rfl, -⟩ := List.cons.inj hhead
      have htail (amount : Amount) : us.filter (fun w => w.asset.amount = amount) =
          vs.filter fun w => w.asset.amount = amount := by
        have hall := hstable amount
        rw [List.filter_cons, List.filter_cons] at hall
        split at hall
        · exact (List.cons.inj hall).2
        · exact hall
      rw [ih htail (List.perm_cons u |>.mp hperm) hasc.2 hasc'.2]

theorem fungibleCandidates_order (available : List Utxo) (token : LedgerAddress) :
    AscendingOrder (fungibleCandidates available token)
      (available.filter (holdsFungible token)) where
  ascending := Amount.pairwise_mergeSort (fun u : Utxo => u.asset.amount) _
  stable := Amount.filter_mergeSort (fun u : Utxo => u.asset.amount) _

/-! ### Totals of runs -/

theorem amountTotal_eq_of_perm {us vs : List Utxo} (h : us.Perm vs) :
    amountTotal us = amountTotal vs :=
  (h.map _).sum_nat

/-- The run reaches an amount beside what is gathered, and no shorter run from its front does. -/
structure ShortestRun (asked gathered : Nat) (run : List Utxo) : Prop where
  reaches : asked ≤ gathered + amountTotal run
  shorter : ∀ k < run.length, gathered + amountTotal (run.take k) < asked

section Runs

variable {asked gathered : Nat} {u : Utxo} {run : List Utxo}

theorem ShortestRun.head_lt (h : ShortestRun asked gathered (u :: run)) : gathered < asked :=
  h.shorter 0 (Nat.zero_lt_succ _)

/-- Behind its first note a shortest run is one beside what is then gathered. -/
theorem ShortestRun.tail (h : ShortestRun asked gathered (u :: run)) :
    ShortestRun asked (gathered + u.asset.amount.toNat) run := by
  constructor
  · have hreaches := h.reaches
    rw [amountTotal_cons] at hreaches
    omega
  · intro k hk
    have hshorter := h.shorter (k + 1) (Nat.succ_lt_succ hk)
    rw [List.take_succ_cons, amountTotal_cons] at hshorter
    omega

theorem ShortestRun.cons (hlt : gathered < asked)
    (h : ShortestRun asked (gathered + u.asset.amount.toNat) run) :
    ShortestRun asked gathered (u :: run) := by
  constructor
  · have hreaches := h.reaches
    rw [amountTotal_cons]
    omega
  · intro k hk
    cases k with
    | zero => exact hlt
    | succ k =>
      have hshorter := h.shorter k (Nat.lt_of_succ_lt_succ hk)
      rw [List.take_succ_cons, amountTotal_cons]
      omega

/-- Notes that reach an amount together start with a shortest run. -/
theorem exists_shortestRun {us : List Utxo} (h : asked ≤ gathered + amountTotal us) :
    ∃ run rest, us = run ++ rest ∧ ShortestRun asked gathered run := by
  induction us generalizing gathered with
  | nil => exact ⟨[], [], rfl, h, fun k hk => absurd hk (Nat.not_lt_zero k)⟩
  | cons u us ih =>
    by_cases hlt : gathered < asked
    · rw [amountTotal_cons, ← Nat.add_assoc] at h
      obtain ⟨run, rest, rfl, hrun⟩ := ih h
      exact ⟨u :: run, rest, rfl, hrun.cons hlt⟩
    · exact ⟨[], u :: us, rfl, Nat.le_of_not_lt hlt, fun k hk => absurd hk (Nat.not_lt_zero k)⟩

end Runs

/-! ### The walk -/

/-- Notes that do not reach the amount are all taken, and their total fits. -/
theorem takeUntil_of_short {asked gathered : Amount} {us : List Utxo}
    (h : gathered.toNat + amountTotal us < asked.toNat) :
    ∃ total : Amount, total.toNat = gathered.toNat + amountTotal us ∧
      takeUntil asked gathered us = .ok (us, total, []) := by
  induction us generalizing gathered with
  | nil => exact ⟨gathered, rfl, rfl⟩
  | cons u us ih =>
    have hfits := asked.isLt
    rw [amountTotal_cons] at h
    have hlt : ¬ asked ≤ gathered := by
      rw [Amount.le_def]
      omega
    obtain ⟨next, hnext⟩ : ∃ next, gathered.add? u.asset.amount = some next := by
      rw [Amount.exists_add?_iff]
      omega
    have hsum := Amount.add?_eq_some_iff.mp hnext
    have hshort : next.toNat + amountTotal us < asked.toNat := by omega
    obtain ⟨total, htotal, hrun⟩ := ih hshort
    refine ⟨total, ?_, ?_⟩
    · rw [htotal, hsum, amountTotal_cons, Nat.add_assoc]
    · rw [takeUntil, if_neg hlt, hnext]
      exact Except.bind_eq_ok_iff.mpr ⟨_, hrun, rfl⟩

/-- Of notes that start with a shortest run that run is taken, if its total fits. -/
theorem takeUntil_of_shortestRun {asked gathered : Amount} {run : List Utxo}
    (h : ShortestRun asked.toNat gathered.toNat run) (rest : List Utxo) :
    takeUntil asked gathered (run ++ rest) =
      match Amount.ofNat? (gathered.toNat + amountTotal run) with
      | none => .error (.overflow .fungible)
      | some total => .ok (run, total, rest) := by
  induction run generalizing gathered with
  | nil =>
    have hle : asked ≤ gathered := h.reaches
    have hself : Amount.ofNat? (gathered.toNat + amountTotal []) = some gathered :=
      Amount.ofNat?_eq_some_iff.mpr rfl
    rw [hself]
    cases rest with
    | nil => rfl
    | cons v rest => exact if_pos hle
  | cons u run ih =>
    have hlt : ¬ asked ≤ gathered := Nat.not_le_of_lt h.head_lt
    rw [List.cons_append, takeUntil, if_neg hlt, amountTotal_cons, ← Nat.add_assoc]
    cases hnext : gathered.add? u.asset.amount with
    | none =>
      -- a total that exceeds 256 bits at this note does so with all notes of the run
      have hover := Amount.add?_eq_none_iff.mp hnext
      have hnone : Amount.ofNat? (gathered.toNat + u.asset.amount.toNat + amountTotal run) =
          none := dif_neg (by omega)
      rw [hnone]
    | some next =>
      have hsum := Amount.add?_eq_some_iff.mp hnext
      have htail : ShortestRun asked.toNat next.toNat run := hsum ▸ h.tail
      rw [← hsum]
      simp only [ih htail]
      cases Amount.ofNat? (next.toNat + amountTotal run) with
      | none => rfl
      | some total => rfl

/-! ### The selection -/

section Select

variable {available : List Utxo} {token : LedgerAddress} {asked : Amount}

theorem amountTotal_fungibleCandidates :
    amountTotal (fungibleCandidates available token) =
      fungibleTotal token (assetsOf available) := by
  rw [fungibleTotal_eq_amountTotal,
    amountTotal_eq_of_perm (fungibleCandidates_order available token).perm]

theorem selectFungible_of_short (h : fungibleTotal token (assetsOf available) < asked.toNat) :
    ∃ held deficit : Amount, held.toNat = fungibleTotal token (assetsOf available) ∧
      deficit.toNat = asked.toNat - fungibleTotal token (assetsOf available) ∧
      selectFungible available token asked =
        .error (.insufficientFungible token asked held deficit) := by
  have hshort : (0 : Amount).toNat + amountTotal (fungibleCandidates available token) <
      asked.toNat := by
    rwa [amountTotal_fungibleCandidates, Amount.toNat_zero, Nat.zero_add]
  obtain ⟨held, hheld, hwalk⟩ := takeUntil_of_short hshort
  rw [amountTotal_fungibleCandidates, Amount.toNat_zero, Nat.zero_add] at hheld
  have hlt : held < asked := by
    rw [Amount.lt_def, hheld]
    exact h
  refine ⟨held, asked.monus held, hheld, ?_, ?_⟩
  · rw [Amount.toNat_monus, hheld]
  · rw [selectFungible, hwalk]
    exact if_pos hlt

theorem selectFungible_of_shortestRun {run rest : List Utxo}
    (hsplit : fungibleCandidates available token = run ++ rest)
    (hrun : ShortestRun asked.toNat 0 run) :
    selectFungible available token asked =
      if amountBound ≤ amountTotal run then .error (.overflow .fungible)
      else .ok ⟨run, (available.filter fun u => !holdsFungible token u) ++ rest⟩ := by
  have hrun' : ShortestRun asked.toNat (0 : Amount).toNat run := hrun
  have hwalk := takeUntil_of_shortestRun hrun' rest
  rw [Amount.toNat_zero, Nat.zero_add] at hwalk
  rw [selectFungible, hsplit, hwalk]
  by_cases hfits : amountTotal run < amountBound
  · have htotal : Amount.ofNat? (amountTotal run) = some ⟨amountTotal run, hfits⟩ := dif_pos hfits
    -- the total of a run that reaches the amount is not reported as too small
    have hreaches : ¬ (⟨amountTotal run, hfits⟩ : Amount) < asked := by
      have h := hrun.reaches
      rw [Amount.lt_def]
      show ¬ amountTotal run < asked.toNat
      omega
    rw [htotal, if_neg (Nat.not_le_of_lt hfits)]
    exact if_neg hreaches
  · have htotal : Amount.ofNat? (amountTotal run) = none := dif_neg hfits
    rw [htotal, if_pos (Nat.le_of_not_lt hfits)]
    rfl

end Select

/-- The notes of a token have one ascending order.  Along it, where they do not make up the amount
asked for, their exact total is reported with what it lacks.  Where they do, there is a shortest run
that does; the selection fails if the total of that run exceeds 256 bits, and else takes exactly
that run and leaves all other notes. -/
theorem selectFungible_exact (available : List Utxo) (token : LedgerAddress) (asked : Amount) :
    (∃ order, AscendingOrder order (available.filter (holdsFungible token))) ∧
      ∀ order, AscendingOrder order (available.filter (holdsFungible token)) →
        (fungibleTotal token (assetsOf available) < asked.toNat →
          ∃ held deficit : Amount, held.toNat = fungibleTotal token (assetsOf available) ∧
            deficit.toNat = asked.toNat - fungibleTotal token (assetsOf available) ∧
            selectFungible available token asked =
              .error (.insufficientFungible token asked held deficit)) ∧
        (asked.toNat ≤ fungibleTotal token (assetsOf available) →
          ∃ run rest, order = run ++ rest ∧ ShortestRun asked.toNat 0 run) ∧
        ∀ run rest, order = run ++ rest → ShortestRun asked.toNat 0 run →
          selectFungible available token asked =
            if amountBound ≤ amountTotal run then .error (.overflow .fungible)
            else .ok ⟨run, (available.filter fun u => !holdsFungible token u) ++ rest⟩ := by
  refine ⟨⟨_, fungibleCandidates_order available token⟩, fun order horder => ?_⟩
  obtain rfl := horder.unique (fungibleCandidates_order available token)
  refine ⟨selectFungible_of_short, fun hreaches => ?_, fun run rest => ?_⟩
  · rw [← amountTotal_fungibleCandidates, ← Nat.zero_add (amountTotal _)] at hreaches
    exact exists_shortestRun hreaches
  · exact selectFungible_of_shortestRun

/-- Notes of a token out of order, two of them of one amount, and a note of ether among them. -/
def purse : List Utxo :=
  [looseNote ⟨0, .zero, 5, 0⟩, looseNote (.ether 7),
    looseNote ⟨0, .zero, 3, 0⟩, looseNote ⟨1, .zero, 5, 0⟩]

/-- The notes of `purse` that hold the token, in ascending order. -/
def purseOrder : List Utxo :=
  [looseNote ⟨0, .zero, 3, 0⟩, looseNote ⟨0, .zero, 5, 0⟩,
    looseNote ⟨1, .zero, 5, 0⟩]

theorem purse_order : AscendingOrder purseOrder (purse.filter (holdsFungible .zero)) where
  ascending := by decide
  stable amount := by
    by_cases hthree : amount = 3
    · subst hthree
      rfl
    · have hother : ¬ (3 : Amount) = amount := fun h => hthree h.symm
      show (List.filter _ [_, _, _]) = List.filter _ [_, _, _]
      simp [List.filter_cons, looseNote, Utxo.asset, hother]

/-- Two notes whose total exceeds 256 bits. -/
def heavyPurse : List Utxo :=
  [looseNote ⟨0, .zero, 1, 0⟩, looseNote ⟨0, .zero, .max, 0⟩]

/-- Of `purse` the note of three and the first of five make up seven, and it lacks seven of twenty;
of `heavyPurse` two cannot be taken. -/
theorem selectFungible_exact_purse :
    selectFungible purse .zero 7 = .ok ⟨purseOrder.take 2,
        [looseNote (.ether 7), looseNote ⟨1, .zero, 5, 0⟩]⟩ ∧
      selectFungible purse .zero 20 = .error (.insufficientFungible .zero 20 13 7) ∧
      selectFungible heavyPurse .zero 2 = .error (.overflow .fungible) := by
  have hexact (asked : Amount) := (selectFungible_exact purse .zero asked).2 _ purse_order
  refine ⟨?_, ?_, ?_⟩
  · have hrun : ShortestRun (7 : Amount).toNat 0 (purseOrder.take 2) := ⟨by decide, by decide⟩
    exact (hexact 7).2.2 _ _ (List.take_append_drop 2 purseOrder).symm hrun
  · obtain ⟨held, deficit, hheld, hdeficit, hselect⟩ := (hexact 20).1 (by decide)
    have hthirteen : held = 13 := Amount.ext hheld
    have hseven : deficit = 7 := Amount.ext hdeficit
    rw [hselect, hthirteen, hseven]
  · have horder : AscendingOrder heavyPurse (heavyPurse.filter (holdsFungible .zero)) :=
      ⟨by decide, fun _ => rfl⟩
    have hrun : ShortestRun (2 : Amount).toNat 0 heavyPurse := ⟨by decide, by decide⟩
    exact ((selectFungible_exact heavyPurse .zero 2).2 _ horder).2.2 _ [] (List.append_nil _).symm
      hrun

end ShieldedWallet
