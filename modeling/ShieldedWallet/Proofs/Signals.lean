/-
Public signals and what they show.

A proof is checked against a flat list of signals, and a verifier on the base
ledger has to find that list again in the bytes of the transaction.  Both sides
arrange rows in columns: all roots, all nullifiers, then the eight columns of
the outputs, then fee and swap.

* `columns` — rows read column by column, and `columns_inj`: rows that their
  cells determine are found again in the columns;
* `publicColumns` — the signals of spends, views of outputs, a fee and a swap,
  and `publicColumns_eq_iff`;
* `Transaction.publicSignals` — the signals computed from a transaction alone;
* `Witness.publicSignals_of_build` — the witness shows the same columns;
* `Desk.compared_signals_of_shield` — what the prover is checked against is what
  a reader of the bytes computes;
* `Witness.publicSignals_eq_iff` — witnesses show the same signals exactly if
  they show the same spends, outputs, fee and swap.

Design notes: a view that shows no data has the cells of zeros, so views are
told apart only among those whose data fits their kind; every output's view is
of that form.
-/
import ShieldedWallet.Proofs.Shielding

namespace ShieldedWallet

/-! ### Columns -/

section Columns

variable {α : Type}

/-- The rows read column by column. -/
def columns (cells : List (α → Nat)) (rows : List α) : List Nat :=
  cells.flatMap fun cell => rows.map cell

theorem columns_cons (cell : α → Nat) (cells : List (α → Nat)) (rows : List α) :
    columns (cell :: cells) rows = rows.map cell ++ columns cells rows := List.flatMap_cons

theorem length_columns (cells : List (α → Nat)) (rows : List α) :
    (columns cells rows).length = cells.length * rows.length := by
  induction cells with
  | nil => exact (Nat.zero_mul _).symm
  | cons cell cells ih =>
    rw [columns_cons, List.length_append, List.length_map, ih, List.length_cons, Nat.succ_mul,
      Nat.add_comm]

theorem forall_mem_columns_iff {cells : List (α → Nat)} {rows : List α} {P : Nat → Prop} :
    (∀ n ∈ columns cells rows, P n) ↔ ∀ r ∈ rows, ∀ cell ∈ cells, P (cell r) := by
  simp only [columns, List.mem_flatMap, List.mem_map]
  constructor
  · intro h r hr cell hcell
    exact h _ ⟨cell, hcell, r, hr, rfl⟩
  · rintro h n ⟨cell, hcell, r, hr, rfl⟩
    exact h r hr cell hcell

theorem map_eq_of_columns_eq {cells : List (α → Nat)} {xs ys : List α}
    (hlen : xs.length = ys.length) (h : columns cells xs = columns cells ys) :
    ∀ cell ∈ cells, xs.map cell = ys.map cell := by
  induction cells with
  | nil => exact List.forall_mem_nil _
  | cons cell cells ih =>
    rw [columns_cons, columns_cons] at h
    -- the first column ends where the rows end
    obtain ⟨hcell, hcells⟩ := List.append_inj h (by rw [List.length_map, List.length_map, hlen])
    exact List.forall_mem_cons.mpr ⟨hcell, ih hcells⟩

theorem columns_inj {cells : List (α → Nat)} {P : α → Prop} {xs ys : List α}
    (hcells : ∀ x y, P x → P y → (∀ cell ∈ cells, cell x = cell y) → x = y)
    (hxs : ∀ x ∈ xs, P x) (hys : ∀ y ∈ ys, P y) (hlen : xs.length = ys.length)
    (h : columns cells xs = columns cells ys) : xs = ys := by
  -- two rows at one place agree in every cell, as the columns do
  refine List.ext_getElem hlen fun i hi hj => ?_
  refine hcells _ _ (hxs _ (List.getElem_mem hi)) (hys _ (List.getElem_mem hj)) ?_
  intro cell hcell
  have hmap := map_eq_of_columns_eq hlen h cell hcell
  have hget : (xs.map cell)[i]? = (ys.map cell)[i]? := by rw [hmap]
  simpa [hi, hj] using hget

end Columns

/-! ### What a transaction shows -/

def Spend.cells : List (Spend → Nat) := [fun s => s.root.val, fun s => s.nullifier.val]

namespace OutflowView

/-- The data shown; plain outputs show zeros. -/
def shown (o : OutflowView) : ExitData := o.data.getD .zero

/-- The columns of outputs: note hashes, kinds, and the six columns of data. -/
def cells : List (OutflowView → Nat) :=
  [fun o => o.note.val, fun o => o.kind.code.toNat, fun o => o.shown.destination.toNat,
   fun o => o.shown.eth.toNat, fun o => o.shown.token.toNat, fun o => o.shown.amount.toNat,
   fun o => o.shown.tokenId.toNat, fun o => o.shown.fee.toNat]

end OutflowView

/-- The columns of spends and of outputs, then the fee and the swap. -/
def publicColumns (inflow : List Spend) (outflow : List OutflowView) (fee : Amount)
    (swap : Option Felt) : List Nat :=
  columns Spend.cells inflow ++ columns OutflowView.cells outflow ++ [fee.toNat, (swap.getD 0).val]

/-- The public signals as the transaction shows them. -/
def Transaction.publicSignals (tx : Transaction) : List Nat :=
  publicColumns tx.inflow tx.outflow tx.fee tx.swap

theorem length_publicColumns (inflow : List Spend) (outflow : List OutflowView) (fee : Amount)
    (swap : Option Felt) :
    (publicColumns inflow outflow fee swap).length =
      2 * inflow.length + 8 * outflow.length + 2 := by
  rw [publicColumns, List.length_append, List.length_append, length_columns, length_columns]
  rfl

/-! ### What the signals bind -/

theorem OutflowKind.code_inj {k k' : OutflowKind} (h : k.code = k'.code) : k = k' :=
  Option.some.inj ((OutflowKind.ofCode?_code k).symm.trans
    ((congrArg OutflowKind.ofCode? h).trans (OutflowKind.ofCode?_code k')))

theorem Spend.eq_of_cells {s s' : Spend} (h : ∀ cell ∈ Spend.cells, cell s = cell s') : s = s' := by
  simp only [Spend.cells, List.forall_mem_cons] at h
  obtain ⟨hroot, hnullifier, -⟩ := h
  exact Spend.ext (Fin.ext hnullifier) (Fin.ext hroot)

theorem OutflowView.data_eq_of_shown {o o' : OutflowView} (ho : o.Consistent) (ho' : o'.Consistent)
    (hkind : o.kind = o'.kind) (hshown : o.shown = o'.shown) : o.data = o'.data := by
  -- of one kind, data is present on both views or on none, so zeros shown for want of data
  -- are not taken for data
  have hpresent : o.data.isSome = o'.data.isSome := ho.trans ((congrArg _ hkind).trans ho'.symm)
  refine data_eq hpresent ?_
  intro d d' hd hd'
  rwa [shown, shown, hd, hd'] at hshown

theorem OutflowView.eq_of_cells {o o' : OutflowView} (ho : o.Consistent) (ho' : o'.Consistent)
    (h : ∀ cell ∈ OutflowView.cells, cell o = cell o') : o = o' := by
  simp only [OutflowView.cells, List.forall_mem_cons] at h
  obtain ⟨hnote, hkind, hdestination, heth, htoken, hamount, htokenId, hfee, -⟩ := h
  have hkind := OutflowKind.code_inj (UInt8.toNat_inj.mp hkind)
  have hshown : o.shown = o'.shown :=
    ExitData.ext (LedgerAddress.ext hdestination) (Amount.ext heth) (LedgerAddress.ext htoken)
      (Amount.ext hamount) (Amount.ext htokenId) (Amount.ext hfee)
  exact OutflowView.ext (Fin.ext hnote) hkind (OutflowView.data_eq_of_shown ho ho' hkind hshown)

/-- Signals of one shape tell the spends, the views of outputs, the fee and the swap, where no swap
reads as the swap zero. -/
theorem publicColumns_eq_iff {inflow inflow' : List Spend} {outflow outflow' : List OutflowView}
    {fee fee' : Amount} {swap swap' : Option Felt} (hinflow : inflow.length = inflow'.length)
    (houtflow : outflow.length = outflow'.length) (hviews : ∀ o ∈ outflow, o.Consistent)
    (hviews' : ∀ o ∈ outflow', o.Consistent) :
    publicColumns inflow outflow fee swap = publicColumns inflow' outflow' fee' swap' ↔
      inflow = inflow' ∧ outflow = outflow' ∧ fee = fee' ∧ swap.getD 0 = swap'.getD 0 := by
  constructor
  · intro h
    -- all parts have their length from the shape, so the list is cut into them from the left
    have hspends : (columns Spend.cells inflow).length = (columns Spend.cells inflow').length := by
      rw [length_columns, length_columns, hinflow]
    have houtputs : (columns OutflowView.cells outflow).length =
        (columns OutflowView.cells outflow').length := by
      rw [length_columns, length_columns, houtflow]
    rw [publicColumns, publicColumns, List.append_assoc, List.append_assoc] at h
    obtain ⟨hcolumns, h⟩ := List.append_inj h hspends
    obtain ⟨hcolumns', h⟩ := List.append_inj h houtputs
    obtain ⟨hfee, hswap⟩ := List.cons.inj h
    refine ⟨?_, ?_, Amount.ext hfee, Fin.ext (List.cons.inj hswap).1⟩
    · exact columns_inj (P := fun _ => True) (fun _ _ _ _ => Spend.eq_of_cells)
        (fun _ _ => trivial) (fun _ _ => trivial) hinflow hcolumns
    · exact columns_inj (fun _ _ => OutflowView.eq_of_cells) hviews hviews' houtflow hcolumns'
  · rintro ⟨rfl, rfl, rfl, hswap⟩
    rw [publicColumns, publicColumns, hswap]

/-! ### Witnesses -/

theorem toString_nat_inj {m n : Nat} (h : toString m = toString n) : m = n := by
  rw [Nat.toString_eq_ofList_toDigits, Nat.toString_eq_ofList_toDigits, String.ofList_inj] at h
  -- reading the digits gives the number back
  rw [← Nat.ofDigitChars_ten_toDigits (n := m), h, Nat.ofDigitChars_ten_toDigits]

namespace Witness

variable {a a' : Account} {plan plan' : Plan} {proofs proofs' : List MerkleProof}
  {w w' : Witness Nat} {spends spends' : List Spend}

theorem toText_publicSignals (w : Witness Nat) :
    w.toText.publicSignals = w.publicSignals.map fun n => toString n :=
  publicSignals_map _ w

theorem toText_publicSignals_eq_iff {w w' : Witness Nat} :
    w.toText.publicSignals = w'.toText.publicSignals ↔ w.publicSignals = w'.publicSignals := by
  rw [toText_publicSignals, toText_publicSignals]
  exact List.map_inj_right fun _ _ => toString_nat_inj

theorem publicSignals_of_build (hbuild : build a plan proofs = .ok (w, spends)) :
    w.publicSignals =
      publicColumns spends (plan.outflow.map OutflowView.ofOutflow) plan.fee plan.swap := by
  -- the witness and the views are computed from the same outputs, column by column
  obtain ⟨spent, -, hpure⟩ := Except.bind_eq_ok_iff.mp hbuild
  cases hpure
  simp only [publicSignals, ofParts, publicColumns, columns, Spend.cells, OutflowView.cells,
    List.flatMap_cons, List.flatMap_nil, List.map_map, List.append_nil, List.append_assoc]
  rfl

theorem length_spends_of_build (hbuild : build a plan proofs = .ok (w, spends))
    (hproofs : proofs.length = plan.inflow.length) : spends.length = plan.inflow.length := by
  obtain ⟨-, -, rfl⟩ := (build_eq_ok_iff (Nat.le_of_eq hproofs.symm)).mp hbuild
  rw [List.length_map, List.length_zip, hproofs, Nat.min_self]

/-- Two witnesses of one shape show the same signals exactly if they show the same spends, the same
views of outputs, the same fee, and the same swap, read as zero where there is none.  Plain outputs
are told apart from exits that show zeros. -/
theorem publicSignals_eq_iff (hbuild : build a plan proofs = .ok (w, spends))
    (hbuild' : build a' plan' proofs' = .ok (w', spends'))
    (hproofs : proofs.length = plan.inflow.length)
    (hproofs' : proofs'.length = plan'.inflow.length)
    (hinflow : plan.inflow.length = plan'.inflow.length)
    (houtflow : plan.outflow.length = plan'.outflow.length) :
    w.toText.publicSignals = w'.toText.publicSignals ↔
      spends = spends' ∧
        plan.outflow.map OutflowView.ofOutflow = plan'.outflow.map OutflowView.ofOutflow ∧
        plan.fee = plan'.fee ∧ plan.swap.getD 0 = plan'.swap.getD 0 := by
  have hspends : spends.length = spends'.length := by
    rw [length_spends_of_build hbuild hproofs, length_spends_of_build hbuild' hproofs', hinflow]
  have hviews : (plan.outflow.map OutflowView.ofOutflow).length =
      (plan'.outflow.map OutflowView.ofOutflow).length := by
    rw [List.length_map, List.length_map, houtflow]
  rw [toText_publicSignals_eq_iff, publicSignals_of_build hbuild, publicSignals_of_build hbuild']
  exact publicColumns_eq_iff hspends hviews (Desk.consistent_views plan) (Desk.consistent_views plan')

/-- The witness of an account's own plan, its input in a tree of root seven. -/
def ownWitness (swap : Option Felt) : Witness Nat :=
  ofPlan ⟨.ofNatBE 32 1⟩ (Account.ownPlan ⟨.ofNatBE 32 1⟩ swap) [⟨7, [], 4⟩]

/-- A swap of zero shows what no swap shows; another swap shows something else. -/
theorem publicSignals_eq_iff_ownWitness :
    (ownWitness none).toText.publicSignals = (ownWitness (some 0)).toText.publicSignals ∧
      (ownWitness none).toText.publicSignals ≠ (ownWitness (some 1)).toText.publicSignals := by
  have hbuild (swap : Option Felt) := Account.build_ownPlan ⟨.ofNatBE 32 1⟩ swap ⟨7, [], 4⟩
  constructor
  · exact (publicSignals_eq_iff (hbuild none) (hbuild (some 0)) rfl rfl rfl rfl).mpr
      ⟨rfl, rfl, rfl, rfl⟩
  · intro h
    have hswap := ((publicSignals_eq_iff (hbuild none) (hbuild (some 1)) rfl rfl rfl rfl).mp
      h).2.2.2
    exact absurd hswap (by decide)

end Witness

/-! ### The check of a proof -/

namespace Desk

/-- The lists that are compared when a plan is shielded: the public signals of its witness, and
those that the prover commits to. -/
inductive Compares (d : Desk) (plan : Plan) : (expected got : List String) → Prop
  | intro {proofs w spends keys result}
      (hproofs : proofsFor d.inclusion plan.inflow = .ok proofs)
      (hbuild : Witness.build d.account plan proofs = .ok (w, spends))
      (hkeys : d.keys plan.inflow.length plan.outflow.length = .ok keys)
      (hproved : d.prover w.toText keys = .proved result) :
      Compares d plan w.toText.publicSignals result.publicSignals

variable {d : Desk} {plan : Plan} {encryptTo : Option Nat} {ephemeral : Scalar} {tx : Transaction}

theorem Compares.unique {expected got expected' got' : List String}
    (h : d.Compares plan expected got) (h' : d.Compares plan expected' got') :
    expected = expected' ∧ got = got' := by
  obtain ⟨hproofs, hbuild, hkeys, hproved⟩ := h
  obtain ⟨hproofs', hbuild', hkeys', hproved'⟩ := h'
  cases hproofs.symm.trans hproofs'
  cases hbuild.symm.trans hbuild'
  cases hkeys.symm.trans hkeys'
  cases hproved.symm.trans hproved'
  exact ⟨rfl, rfl⟩

theorem Proves.compares {proofs : List MerkleProof} {memo : Option Memo} {keys : KeyFiles}
    {result : ProvedSignals} (h : d.Proves plan encryptTo ephemeral proofs memo keys result) :
    d.Compares plan (d.signals plan proofs).publicSignals result.publicSignals :=
  .intro (proofsFor_eq_ok_iff.mpr h.included) h.build_eq h.keyed h.proved

namespace Admits

variable {proofs : List MerkleProof}

theorem wellFormed (h : d.Admits plan proofs) (hinflow : plan.inflow.length ≤ 255)
    (houtflow : plan.outflow.length ≤ 255) (proof : Groth16Proof) (memo : Option Memo) :
    (d.transactionOf plan proofs proof memo).WellFormed where
  inflow_le := by
    show (proofs.map d.account.spend).length ≤ 255
    rwa [List.length_map, ← h.length_eq]
  outflow_le := by
    show (plan.outflow.map OutflowView.ofOutflow).length ≤ 255
    rwa [List.length_map]
  consistent := consistent_views plan

theorem signals_eq (h : d.Admits plan proofs) (proof : Groth16Proof) (memo : Option Memo) :
    (d.signals plan proofs).publicSignals =
      (d.transactionOf plan proofs proof memo).publicSignals.map fun n => toString n := by
  rw [signals, Witness.toText_publicSignals, Witness.publicSignals_of_build h.build_eq]
  rfl

end Admits

/-- Whenever shielding gives a transaction, the list that the proof is checked against is the one
that a reader computes from the bytes of the transaction, and so is the list that the prover
committed to. -/
theorem compared_signals_of_shield (h : d.shield plan encryptTo ephemeral = .ok tx) :
    ∃ read expected, Transaction.decode tx.encode = .ok read ∧
      d.Compares plan expected expected ∧
      (∀ e g, d.Compares plan e g → e = expected ∧ g = expected) ∧
      expected.length = 2 * plan.inflow.length + 8 * plan.outflow.length + 2 ∧
      expected = read.publicSignals.map fun n => toString n := by
  obtain @⟨proofs, memo, keys, result, hproves, hinflow, houtflow⟩ := shield_eq_ok_iff.mp h
  have hwell := hproves.wellFormed hinflow houtflow result.proof memo
  have hsignals := hproves.signals_eq result.proof memo
  have hcompares := hproves.compares
  rw [← hproves.agree] at hcompares
  refine ⟨_, _, Transaction.decode_eq_ok_iff.mpr ⟨hwell, rfl⟩, hcompares,
    fun e g hcompares' => hcompares'.unique hcompares, ?_, hsignals⟩
  rw [hsignals, List.length_map, Transaction.publicSignals, length_publicColumns]
  simp only [transactionOf, List.length_map, hproves.length_eq]

/-- A desk of one account, whose prover answers with the signals that it is shown. -/
def ownDesk : Desk where
  account := ⟨.ofNatBE 32 1⟩
  tokens := []
  inclusion := fun _ => .ok ⟨7, [], 4⟩
  keys := fun _ _ => .ok ⟨"program", "proving key", "verifying key"⟩
  prover := mockProver

/-- One input and two outputs are checked by twenty signals. -/
theorem compared_signals_of_shield_ownDesk :
    ∃ tx read expected, ownDesk.shield (ownDesk.account.ownPlan none) none 0 = .ok tx ∧
      Transaction.decode tx.encode = .ok read ∧
      ownDesk.Compares (ownDesk.account.ownPlan none) expected expected ∧ expected.length = 20 := by
  have hproves : ownDesk.Proves (ownDesk.account.ownPlan none) none 0 [⟨7, [], 4⟩] none _ _ :=
    ⟨⟨⟨rfl, Account.views_of_mem_ownPlan⟩, rfl, rfl⟩, rfl, rfl⟩
  have hshield := shield_of_accepts (.intro hproves (by decide) (by decide))
  obtain ⟨read, expected, hdecode, hcompares, -, hlength, -⟩ := compared_signals_of_shield hshield
  exact ⟨_, read, expected, hshield, hdecode, hcompares, hlength⟩

end Desk

end ShieldedWallet
