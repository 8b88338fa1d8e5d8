/-
Provers that answer in the field.

A prover over the field can only return a public signal as its least residue.
The witness shows field elements, ledger addresses and kinds of outputs, which
are least residues already, and the amounts of exits and the fee as they are,
which may be wider.

* `Prover.Faithful` — the prover succeeds and answers with least residues;
* `Plan.ShowsInField` — no amount that the plan shows reaches the order, which is
  `forall_publicColumns_lt_iff` for the list of signals;
* `FirstWide` — where a list reaches the order first, which is where its decimals
  differ first from those of its residues;
* `Desk.shield_of_faithful` — with such a prover and all else in place, shielding
  gives a transaction if the plan shows amounts below the order only, and
  otherwise reports the first signal that reaches it.

Design notes: the hash of a note takes the residues of its amounts, so wide
amounts pass it; the comparison of signals is where they stop.
-/
import ShieldedWallet.Proofs.Balance
import ShieldedWallet.Proofs.Commitment

namespace ShieldedWallet

/-- The prover succeeds on every witness and answers with the least residues of its public
signals. -/
def Prover.Faithful (prover : Prover) : Prop :=
  ∀ (w : Witness Nat) (keys : KeyFiles), ∃ proof, prover w.toText keys =
    .proved ⟨proof, w.publicSignals.map fun n => toString (n % fieldOrder)⟩

/-- No amount that the plan shows reaches the order of the field. -/
structure Plan.ShowsInField (plan : Plan) : Prop where
  exits : ∀ o ∈ plan.outflow, ∀ e, o.exit? = some e →
    e.note.asset.InField ∧ e.fee.toNat < fieldOrder
  fee : plan.fee.toNat < fieldOrder

/-! ### What is shown below the order -/

theorem LedgerAddress.toNat_lt_fieldOrder (a : LedgerAddress) : a.toNat < fieldOrder :=
  a.toFelt.isLt

theorem Spend.cells_lt (s : Spend) : ∀ cell ∈ Spend.cells, cell s < fieldOrder := by
  simp only [Spend.cells, List.forall_mem_cons]
  exact ⟨s.root.isLt, s.nullifier.isLt, List.forall_mem_nil _⟩

theorem OutflowView.cells_lt_iff (o : Outflow) :
    (∀ cell ∈ OutflowView.cells, cell (.ofOutflow o) < fieldOrder) ↔
      ∀ e, o.exit? = some e → e.note.asset.InField ∧ e.fee.toNat < fieldOrder := by
  have hnote : (OutflowView.ofOutflow o).note.val < fieldOrder := (OutflowView.ofOutflow o).note.isLt
  have hkind : (OutflowView.ofOutflow o).kind.code.toNat < fieldOrder := by
    cases (OutflowView.ofOutflow o).kind <;> decide +kernel
  have hto := (OutflowView.ofOutflow o).shown.destination.toNat_lt_fieldOrder
  have htoken := (OutflowView.ofOutflow o).shown.token.toNat_lt_fieldOrder
  have hamounts : (∀ cell ∈ OutflowView.cells, cell (.ofOutflow o) < fieldOrder) ↔
      (OutflowView.ofOutflow o).shown.eth.toNat < fieldOrder ∧
        (OutflowView.ofOutflow o).shown.amount.toNat < fieldOrder ∧
        (OutflowView.ofOutflow o).shown.tokenId.toNat < fieldOrder ∧
        (OutflowView.ofOutflow o).shown.fee.toNat < fieldOrder := by
    simp only [OutflowView.cells, List.forall_mem_cons, List.not_mem_nil, false_implies,
      implies_true, and_true, hnote, hkind, hto, htoken, true_and]
  rw [hamounts]
  constructor
  · rintro ⟨heth, hamount, htokenId, hfee⟩ e he
    simp only [OutflowView.shown, OutflowView.ofOutflow, he] at heth hamount htokenId hfee
    exact ⟨⟨heth, hamount, htokenId⟩, hfee⟩
  · intro h
    cases he : o.exit? with
    | none =>
      simp only [OutflowView.shown, OutflowView.ofOutflow, he]
      have hzero : (0 : Nat) < fieldOrder := by decide +kernel
      exact ⟨hzero, hzero, hzero, hzero⟩
    | some e =>
      obtain ⟨⟨heth, hamount, htokenId⟩, hfee⟩ := h e he
      simp only [OutflowView.shown, OutflowView.ofOutflow, he]
      exact ⟨heth, hamount, htokenId, hfee⟩

theorem forall_publicColumns_lt_iff (spends : List Spend) (plan : Plan) :
    (∀ n ∈ publicColumns spends (plan.outflow.map OutflowView.ofOutflow) plan.fee plan.swap,
        n < fieldOrder) ↔ plan.ShowsInField := by
  have hspends : ∀ n ∈ columns Spend.cells spends, n < fieldOrder :=
    forall_mem_columns_iff.mpr fun s _ => s.cells_lt
  have hviews : (∀ n ∈ columns OutflowView.cells (plan.outflow.map OutflowView.ofOutflow),
      n < fieldOrder) ↔ ∀ o ∈ plan.outflow, ∀ e, o.exit? = some e →
        e.note.asset.InField ∧ e.fee.toNat < fieldOrder := by
    simp only [forall_mem_columns_iff, List.forall_mem_map, OutflowView.cells_lt_iff]
  have hlast : (∀ n ∈ [plan.fee.toNat, (plan.swap.getD 0).val], n < fieldOrder) ↔
      plan.fee.toNat < fieldOrder := by
    simp only [List.forall_mem_cons, List.not_mem_nil, false_implies, implies_true, and_true,
      (plan.swap.getD 0).isLt]
  rw [publicColumns, List.forall_mem_append, List.forall_mem_append, hviews, hlast]
  constructor
  · rintro ⟨⟨-, hexits⟩, hfee⟩
    exact ⟨hexits, hfee⟩
  · intro h
    exact ⟨⟨hspends, h.exits⟩, h.fee⟩

/-! ### Where a list reaches the order -/

/-- The number at the index reaches the order of the field, and none before does. -/
structure FirstWide (ns : List Nat) (index n : Nat) : Prop where
  here : ns[index]? = some n
  wide : fieldOrder ≤ n
  before : ∀ j < index, ∀ m, ns[j]? = some m → m < fieldOrder

section Lists

variable {ns : List Nat} {index n : Nat}

theorem exists_firstWide (h : ¬ ∀ n ∈ ns, n < fieldOrder) : ∃ index n, FirstWide ns index n := by
  classical
  have hwide : ∃ (i n : Nat), ns[i]? = some n ∧ fieldOrder ≤ n := by
    by_contra hnone
    refine h fun n hn => ?_
    obtain ⟨i, hi⟩ := List.getElem?_of_mem hn
    by_contra hlt
    exact hnone ⟨i, n, hi, Nat.le_of_not_lt hlt⟩
  obtain ⟨n, here, wide⟩ := Nat.find_spec hwide
  refine ⟨Nat.find hwide, n, here, wide, fun j hj m hm => ?_⟩
  by_contra hlt
  exact Nat.find_min hwide hj ⟨m, hm, Nat.le_of_not_lt hlt⟩

theorem firstWide_append {front : List Nat} (h : ∀ m ∈ front, m < fieldOrder)
    (hn : fieldOrder ≤ n) (rest : List Nat) :
    FirstWide (front ++ n :: rest) front.length n where
  here := by rw [List.getElem?_append_right (Nat.le_refl _), Nat.sub_self, List.getElem?_cons_zero]
  wide := hn
  before := by
    intro j hj m hm
    rw [List.getElem?_append_left hj] at hm
    exact h m (List.mem_of_getElem? hm)

theorem map_residue_eq (h : ∀ n ∈ ns, n < fieldOrder) :
    ns.map (fun n => toString (n % fieldOrder)) = ns.map fun n => toString n := by
  refine List.map_congr_left fun n hn => ?_
  rw [Nat.mod_eq_of_lt (h n hn)]

theorem FirstWide.firstDifference (h : FirstWide ns index n) :
    FirstDifference (ns.map fun n => toString n) (ns.map fun n => toString (n % fieldOrder))
      index where
  agree := by
    intro j hj
    rw [List.getElem?_map, List.getElem?_map]
    cases hm : ns[j]? with
    | none => rfl
    | some m =>
      have hlt := h.before j hj m hm
      rw [Option.map_some, Option.map_some, Nat.mod_eq_of_lt hlt]
  differ := by
    rw [List.getElem?_map, List.getElem?_map, h.here, Option.map_some, Option.map_some]
    intro heq
    have hmod : n = n % fieldOrder := toString_nat_inj (Option.some.inj heq)
    have hlt : n % fieldOrder < fieldOrder := Nat.mod_lt n (by decide +kernel)
    exact absurd (hmod ▸ hlt) (Nat.not_lt.mpr h.wide)

end Lists

/-! ### Shielding -/

namespace Desk

variable {d : Desk} {plan : Plan} {encryptTo : Option Nat} {ephemeral : Scalar}
  {proofs : List MerkleProof} {memo : Option Memo} {keys : KeyFiles}

theorem Admits.forall_publicSignals_lt_iff (h : d.Admits plan proofs) :
    (∀ n ∈ (Witness.ofPlan d.account plan proofs).publicSignals, n < fieldOrder) ↔
      plan.ShowsInField := by
  rw [Witness.publicSignals_of_build h.build_eq]
  exact forall_publicColumns_lt_iff _ plan

/-- What a faithful prover answers. -/
theorem proved_of_faithful (hfaithful : d.prover.Faithful) (plan : Plan)
    (proofs : List MerkleProof) (keys : KeyFiles) :
    ∃ result, d.prover (d.signals plan proofs) keys = .proved result ∧
      (d.signals plan proofs).publicSignals =
          (Witness.ofPlan d.account plan proofs).publicSignals.map (fun n => toString n) ∧
        result.publicSignals = (Witness.ofPlan d.account plan proofs).publicSignals.map
          fun n => toString (n % fieldOrder) := by
  obtain ⟨proof, hproved⟩ := hfaithful (Witness.ofPlan d.account plan proofs) keys
  exact ⟨_, hproved, Witness.toText_publicSignals _, rfl⟩

/-- The answer of a faithful prover is the one expected if all that is shown is below the order. -/
theorem Prepares.proves_of_faithful (h : d.Prepares plan encryptTo ephemeral proofs memo keys)
    (hfaithful : d.prover.Faithful) (hshown : plan.ShowsInField) :
    ∃ result, d.Proves plan encryptTo ephemeral proofs memo keys result := by
  obtain ⟨result, hproved, hexpected, hgot⟩ := proved_of_faithful hfaithful plan proofs keys
  have hlt := h.toAdmits.forall_publicSignals_lt_iff.mpr hshown
  have hagree : (d.signals plan proofs).publicSignals = result.publicSignals := by
    rw [hexpected, hgot, map_residue_eq hlt]
  exact ⟨result, h, hproved, hagree⟩

theorem Prepares.refuses_of_faithful (h : d.Prepares plan encryptTo ephemeral proofs memo keys)
    (hfaithful : d.prover.Faithful) {index n : Nat}
    (hwide : FirstWide (Witness.ofPlan d.account plan proofs).publicSignals index n) :
    d.Refuses plan encryptTo ephemeral
      (.signalMismatch index (toString n) (toString (n % fieldOrder))) := by
  obtain ⟨result, hproved, hexpected, hgot⟩ := proved_of_faithful hfaithful plan proofs keys
  have hdiffer : FirstDifference (d.signals plan proofs).publicSignals result.publicSignals
      index := by
    rw [hexpected, hgot]
    exact hwide.firstDifference
  have hat := Refuses.signals h hproved hdiffer
  rw [hexpected, hgot, List.getElem?_map, List.getElem?_map, hwide.here] at hat
  exact hat

/-- With a faithful prover, signals that do not agree are never reported of a plan that shows
amounts below the order only. -/
theorem not_signalMismatch_of_faithful (hfaithful : d.prover.Faithful)
    (hshown : plan.ShowsInField) (index : Nat) (expected got : String) :
    d.shield plan encryptTo ephemeral ≠ .error (.signalMismatch index expected got) := by
  intro h
  cases shield_eq_error_iff.mp h with
  | signals hprepares hproved hdiffer =>
    obtain ⟨result, hproves⟩ := hprepares.proves_of_faithful hfaithful hshown
    obtain rfl := ProverOutcome.proved.inj (hproved.symm.trans hproves.proved)
    rw [hproves.agree] at hdiffer
    exact hdiffer.differ rfl

/-- With a faithful prover and all else in place, a plan that shows amounts below the order only is
shielded.  Of any other plan the first signal that reaches the order is reported, beside its
residue. -/
theorem shield_of_faithful (hfaithful : d.prover.Faithful)
    (hincluded : ∀ u ∈ plan.inflow, ∃ proof, d.inclusion u.note.hash = .ok proof)
    (howned : ∀ u ∈ plan.inflow, u.note.owner = d.account.address)
    (hkeys : d.keys plan.inflow.length plan.outflow.length = .ok keys)
    (hinflow : plan.inflow.length ≤ 255) (houtflow : plan.outflow.length ≤ 255) :
    (plan.ShowsInField → ∀ index expected got,
        d.shield plan encryptTo ephemeral ≠ .error (.signalMismatch index expected got)) ∧
      ∀ memo, d.memo plan encryptTo ephemeral = .ok memo →
        (plan.ShowsInField → ∃ tx, d.shield plan encryptTo ephemeral = .ok tx) ∧
          (¬ plan.ShowsInField → ∃ proofs index n, d.Admits plan proofs ∧
            FirstWide (Witness.ofPlan d.account plan proofs).publicSignals index n ∧
              d.shield plan encryptTo ephemeral =
                .error (.signalMismatch index (toString n) (toString (n % fieldOrder)))) := by
  refine ⟨not_signalMismatch_of_faithful hfaithful, fun memo hmemo => ?_⟩
  obtain ⟨proofs, hproofs⟩ := proofsFor_of_forall hincluded
  have hadmits : d.Admits plan proofs :=
    ⟨proofsFor_eq_ok_iff.mp hproofs, fun u hu => Account.views_of_owner (howned u hu)⟩
  have hprepares : d.Prepares plan encryptTo ephemeral proofs memo keys :=
    ⟨hadmits, memo_eq_ok_iff.mp hmemo, hkeys⟩
  constructor
  · intro hshown
    obtain ⟨result, hproves⟩ := hprepares.proves_of_faithful hfaithful hshown
    exact ⟨_, shield_of_accepts (.intro hproves hinflow houtflow)⟩
  · intro hshown
    obtain ⟨index, n, hwide⟩ := exists_firstWide (mt hadmits.forall_publicSignals_lt_iff.mp hshown)
    exact ⟨proofs, index, n, hadmits, hwide,
      shield_of_refuses (hprepares.refuses_of_faithful hfaithful hwide)⟩

/-! ### A faithful prover -/

/-- Answers with the residues of the signals that it is shown. -/
def reducingProver : Prover := fun w _ =>
  .proved ⟨MockProver.proof w,
    w.publicSignals.map fun s => toString (Nat.ofDigitChars 10 s.toList 0 % fieldOrder)⟩

theorem reducingProver_faithful : Prover.Faithful reducingProver := by
  intro w keys
  refine ⟨MockProver.proof w.toText, ?_⟩
  have hdigits (n : Nat) : Nat.ofDigitChars 10 (toString n).toList 0 = n := by
    rw [Nat.toString_eq_ofList_toDigits, String.toList_ofList, Nat.ofDigitChars_ten_toDigits]
  simp only [reducingProver, Witness.toText_publicSignals, List.map_map, Function.comp_def, hdigits]

/-- The desk of one account with a faithful prover. -/
def faithfulDesk : Desk := { ownDesk with prover := reducingProver }

/-- A plan of one note of ether, which leaves the pool but for fees of five and five. -/
def exitPlan (spent shown : Amount) : Plan where
  inflow := [⟨⟨faithfulDesk.account.address, 11, .ether spent⟩, .unspent⟩]
  outflow := [.withdrawal ⟨⟨faithfulDesk.account.address, 13, .ether shown⟩, .zero, 5,
    .nonIncluded⟩]
  swap := none
  fee := 5

theorem checkBalance_exitPlan {spent shown : Amount} (h : spent.toNat = shown.toNat + 10) :
    (exitPlan spent shown).checkBalance = .ok () := by
  have hin : ∀ a ∈ (exitPlan spent shown).inflowAssets, a.isEtherOnly = true :=
    List.forall_mem_singleton.mpr rfl
  have hout : ∀ a ∈ (exitPlan spent shown).outflowAssets, a.isEtherOnly = true :=
    List.forall_mem_singleton.mpr rfl
  have hspent : etherTotal (exitPlan spent shown).inflowAssets = spent.toNat := Nat.add_zero _
  have hshown : etherTotal (exitPlan spent shown).outflowAssets = shown.toNat := Nat.add_zero _
  refine Plan.checkBalance_of_etherOnly hin hout (hspent ▸ spent.isLt) ?_
  rw [hspent, hshown, h]
  rfl

theorem admits_exitPlan (spent shown : Amount) :
    faithfulDesk.Admits (exitPlan spent shown) [⟨7, [], 4⟩] :=
  ⟨rfl, fun _ hu => Account.views_of_owner (List.mem_singleton.mp hu ▸ rfl)⟩

theorem showsInField_exitPlan_iff (spent shown : Amount) :
    (exitPlan spent shown).ShowsInField ↔ shown.toNat < fieldOrder := by
  have hfive : (5 : Amount).toNat < fieldOrder := by decide +kernel
  have hzero : (0 : Amount).toNat < fieldOrder := by decide +kernel
  constructor
  · intro h
    exact (h.exits _ (List.mem_singleton_self _) _ rfl).1.eth
  · intro h
    refine ⟨?_, hfive⟩
    intro o ho e he
    rw [List.mem_singleton.mp ho] at he
    obtain rfl := Option.some.inj he
    exact ⟨⟨h, hzero, hzero⟩, hfive⟩

/-- Thirty leave the pool. -/
theorem shield_of_faithful_exitPlan :
    (exitPlan 40 30).ShowsInField ∧
      ∃ tx, faithfulDesk.shield (exitPlan 40 30) none 0 = .ok tx := by
  have hshown := (showsInField_exitPlan_iff 40 30).mpr (by decide +kernel)
  have hincluded : ∀ u ∈ (exitPlan 40 30).inflow, ∃ proof,
      faithfulDesk.inclusion u.note.hash = .ok proof := fun _ _ => ⟨_, rfl⟩
  have howned : ∀ u ∈ (exitPlan 40 30).inflow, u.note.owner = faithfulDesk.account.address :=
    List.forall_mem_singleton.mpr rfl
  have hkeys : faithfulDesk.keys (exitPlan 40 30).inflow.length (exitPlan 40 30).outflow.length =
      .ok ⟨"program", "proving key", "verifying key"⟩ := rfl
  have hmemo : faithfulDesk.memo (exitPlan 40 30) none 0 = .ok none := rfl
  have hshield := (shield_of_faithful reducingProver_faithful hincluded howned hkeys (by decide)
    (by decide)).2 none hmemo
  exact ⟨hshown, hshield.1 hshown⟩

/-- The order of the field as an amount, and ten more. -/
def orderAmount : Amount := ⟨fieldOrder, by decide +kernel⟩

def orderAndTen : Amount := ⟨fieldOrder + 10, by decide +kernel⟩

/-- A balanced plan of one's own note, with a proof of it and key files, is refused with a faithful
prover, which returns the order of the field as zero. -/
theorem shield_refuses_orderAmount :
    (exitPlan orderAndTen orderAmount).checkBalance = .ok () ∧ faithfulDesk.prover.Faithful ∧
      (∀ u ∈ (exitPlan orderAndTen orderAmount).inflow,
        u.note.owner = faithfulDesk.account.address ∧
          faithfulDesk.inclusion u.note.hash = .ok ⟨7, [], 4⟩) ∧
        faithfulDesk.keys 1 1 = .ok ⟨"program", "proving key", "verifying key"⟩ ∧
          faithfulDesk.shield (exitPlan orderAndTen orderAmount) none 0 =
            .error (.signalMismatch 5 (toString fieldOrder) "0") := by
  have howned : ∀ u ∈ (exitPlan orderAndTen orderAmount).inflow,
      u.note.owner = faithfulDesk.account.address ∧
        faithfulDesk.inclusion u.note.hash = .ok ⟨7, [], 4⟩ :=
    List.forall_mem_singleton.mpr ⟨rfl, rfl⟩
  have hadmits := admits_exitPlan orderAndTen orderAmount
  have hprepares : faithfulDesk.Prepares (exitPlan orderAndTen orderAmount) none 0 [⟨7, [], 4⟩]
      none _ := ⟨hadmits, rfl, rfl⟩
  -- a root, a nullifier, a note hash, a kind and a destination stand before the amount
  have hfront : ∀ n ∈ [(7 : Felt).val, (faithfulDesk.account.spend ⟨7, [], 4⟩).nullifier.val,
      (Note.hash ⟨faithfulDesk.account.address, 13, .ether orderAmount⟩).val, 1, 0],
      n < fieldOrder := by
    simp only [List.forall_mem_cons, Fin.isLt, true_and]
    decide +kernel
  have hwide : FirstWide (Witness.ofPlan faithfulDesk.account (exitPlan orderAndTen orderAmount)
      [⟨7, [], 4⟩]).publicSignals 5 fieldOrder := by
    rw [Witness.publicSignals_of_build hadmits.build_eq]
    exact firstWide_append hfront (Nat.le_refl _) _
  have hrefused := shield_of_refuses (hprepares.refuses_of_faithful reducingProver_faithful hwide)
  rw [Nat.mod_self] at hrefused
  exact ⟨checkBalance_exitPlan rfl, reducingProver_faithful, howned, rfl, hrefused⟩

end Desk

end ShieldedWallet
