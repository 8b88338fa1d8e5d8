/-
When shielding gives a transaction, and which.

Shielding asks for the inclusion proofs, builds the witness, encrypts an output
as the memo, resolves the key files, runs the prover and compares its signals.
The conditions under which it succeeds are stated apart from how they are
checked:

* `Desk.Prepares` — all that has to hold before the prover is run;
* `Desk.Accepts` — the transactions that shielding gives;
* `Desk.Refuses` — the failures, each with all that has to hold before it;
* `Desk.accepts_or_refuses` — there is no third case;
* `Desk.shield_iff` — shielding ends as these say, for every source of proofs,
  all outcomes of the key files and every prover.

Design notes: nothing is asked of the prover.  It may fail, crash or commit to
any signals; only a result with the witness's own public signals is accepted.
-/
import ShieldedWallet.Proofs.Mismatch
import ShieldedWallet.Proofs.Witnesses
import ShieldedWallet.Proofs.Wire

namespace ShieldedWallet

/-! ### What has to hold -/

namespace Desk

variable {d : Desk} {plan : Plan} {encryptTo : Option Nat} {ephemeral : Scalar}

/-- The proofs are the source's answers for the inputs, by position, and the account views every
input. -/
structure Admits (d : Desk) (plan : Plan) (proofs : List MerkleProof) : Prop where
  included : plan.inflow.map (fun u => d.inclusion u.note.hash) = proofs.map .ok
  viewed : ∀ u ∈ plan.inflow, d.account.Views u

/-- The memo is the encryption of the output with the index; there is none without an index. -/
def Carries (d : Desk) (plan : Plan) (encryptTo : Option Nat) (ephemeral : Scalar)
    (memo : Option Memo) : Prop :=
  match encryptTo with
  | none => memo = none
  | some index => ∃ o c, plan.outflow[index]? = some o ∧
      o.note.encrypt d.tokens ephemeral = .ok c ∧ memo = some (.note c)

/-- All that has to hold before the prover is run. -/
structure Prepares (d : Desk) (plan : Plan) (encryptTo : Option Nat) (ephemeral : Scalar)
    (proofs : List MerkleProof) (memo : Option Memo) (keys : KeyFiles) : Prop
    extends d.Admits plan proofs where
  carried : d.Carries plan encryptTo ephemeral memo
  keyed : d.keys plan.inflow.length plan.outflow.length = .ok keys

/-- The signals that the prover is shown. -/
def signals (d : Desk) (plan : Plan) (proofs : List MerkleProof) : Witness String :=
  (Witness.ofPlan d.account plan proofs).toText

/-- The prover answers with the public signals of the witness. -/
structure Proves (d : Desk) (plan : Plan) (encryptTo : Option Nat) (ephemeral : Scalar)
    (proofs : List MerkleProof) (memo : Option Memo) (keys : KeyFiles) (result : ProvedSignals) :
    Prop extends d.Prepares plan encryptTo ephemeral proofs memo keys where
  proved : d.prover (d.signals plan proofs) keys = .proved result
  agree : (d.signals plan proofs).publicSignals = result.publicSignals

/-- The transaction put together from a plan. -/
def transactionOf (d : Desk) (plan : Plan) (proofs : List MerkleProof) (proof : Groth16Proof)
    (memo : Option Memo) : Transaction where
  inflow := proofs.map fun p =>
    { nullifier := poseidon (Utxo.nullifierInputs d.account.viewingScalar p.index), root := p.root }
  outflow := plan.outflow.map OutflowView.ofOutflow
  fee := plan.fee
  proof := proof
  swap := plan.swap
  memo := memo

/-- The transactions that shielding gives. -/
inductive Accepts (d : Desk) (plan : Plan) (encryptTo : Option Nat) (ephemeral : Scalar) :
    Transaction → Prop
  | intro {proofs memo keys result}
      (hproves : d.Proves plan encryptTo ephemeral proofs memo keys result)
      (hinflow : plan.inflow.length ≤ 255) (houtflow : plan.outflow.length ≤ 255) :
      Accepts d plan encryptTo ephemeral (d.transactionOf plan proofs result.proof memo)

/-- The failures of shielding.  Each comes with all that has to hold before it. -/
inductive Refuses (d : Desk) (plan : Plan) (encryptTo : Option Nat) (ephemeral : Scalar) :
    ShieldError → Prop
  | inclusion {cause}
      (hfirst : Except.FirstFailure (fun u : Utxo => d.inclusion u.note.hash) plan.inflow cause) :
      Refuses d plan encryptTo ephemeral (.inclusion cause)
  | notOwner {proofs : List MerkleProof} {u}
      (hincluded : plan.inflow.map (fun u => d.inclusion u.note.hash) = proofs.map .ok)
      (hu : u ∈ plan.inflow) (hviews : ¬ d.account.Views u) :
      Refuses d plan encryptTo ephemeral (.note .notOwner)
  | noSuchOutput {proofs index} (hadmits : d.Admits plan proofs)
      (hindex : encryptTo = some index) (houtflow : plan.outflow.length ≤ index) :
      Refuses d plan encryptTo ephemeral (.noSuchOutput index)
  | memo {proofs index o cause} (hadmits : d.Admits plan proofs)
      (hindex : encryptTo = some index) (ho : plan.outflow[index]? = some o)
      (hencrypt : o.note.encrypt d.tokens ephemeral = .error cause) :
      Refuses d plan encryptTo ephemeral (.note cause)
  | keys {proofs memo cause} (hadmits : d.Admits plan proofs)
      (hcarries : d.Carries plan encryptTo ephemeral memo)
      (hkeys : d.keys plan.inflow.length plan.outflow.length = .error cause) :
      Refuses d plan encryptTo ephemeral (.keys cause)
  | failed {proofs memo keys reason}
      (hprepares : d.Prepares plan encryptTo ephemeral proofs memo keys)
      (hprover : d.prover (d.signals plan proofs) keys = .failed reason) :
      Refuses d plan encryptTo ephemeral (.prover reason)
  | crashed {proofs memo keys report}
      (hprepares : d.Prepares plan encryptTo ephemeral proofs memo keys)
      (hprover : d.prover (d.signals plan proofs) keys = .crashed report) :
      Refuses d plan encryptTo ephemeral (.prover ("prover task panicked: " ++ report))
  | signals {proofs memo keys result index}
      (hprepares : d.Prepares plan encryptTo ephemeral proofs memo keys)
      (hproved : d.prover (d.signals plan proofs) keys = .proved result)
      (hdiffer : FirstDifference (d.signals plan proofs).publicSignals result.publicSignals index) :
      Refuses d plan encryptTo ephemeral (.signalMismatch index
        ((d.signals plan proofs).publicSignals[index]?.getD missingSignal)
        (result.publicSignals[index]?.getD missingSignal))
  | inflows {proofs memo keys result}
      (hproves : d.Proves plan encryptTo ephemeral proofs memo keys result)
      (hinflow : 255 < plan.inflow.length) :
      Refuses d plan encryptTo ephemeral (.encode (.tooManyInflows plan.inflow.length))
  | outflows {proofs memo keys result}
      (hproves : d.Proves plan encryptTo ephemeral proofs memo keys result)
      (hinflow : plan.inflow.length ≤ 255) (houtflow : 255 < plan.outflow.length) :
      Refuses d plan encryptTo ephemeral (.encode (.tooManyOutflows plan.outflow.length))

/-! ### The steps -/

theorem memo_eq_ok_iff {memo : Option Memo} :
    d.memo plan encryptTo ephemeral = .ok memo ↔ d.Carries plan encryptTo ephemeral memo := by
  cases encryptTo with
  | none => exact ⟨fun h => (Except.ok.inj h).symm, fun h => congrArg Except.ok h.symm⟩
  | some index =>
    simp only [Desk.memo, Carries]
    cases plan.outflow[index]? with
    | none => simp
    | some o =>
      cases hc : o.note.encrypt d.tokens ephemeral with
      | error cause => simp [hc]
      | ok c => simp [hc, eq_comm]

theorem memo_eq_error_iff {e : ShieldError} :
    d.memo plan encryptTo ephemeral = .error e ↔ ∃ index, encryptTo = some index ∧
      (plan.outflow.length ≤ index ∧ e = .noSuchOutput index ∨
        ∃ o cause, plan.outflow[index]? = some o ∧
          o.note.encrypt d.tokens ephemeral = .error cause ∧ e = .note cause) := by
  cases encryptTo with
  | none => exact iff_of_false (fun h => nomatch h) (fun ⟨_, h, _⟩ => nomatch h)
  | some index =>
    simp only [Desk.memo, Option.some.injEq, exists_eq_left']
    rw [← List.getElem?_eq_none_iff]
    cases plan.outflow[index]? with
    | none => simp [eq_comm]
    | some o =>
      cases hc : o.note.encrypt d.tokens ephemeral with
      | error cause => simp [hc, eq_comm]
      | ok c => simp [hc]

/-- The views of outputs show what their kinds show. -/
theorem consistent_views (plan : Plan) :
    ∀ o ∈ plan.outflow.map OutflowView.ofOutflow, o.Consistent :=
  List.forall_mem_map.mpr fun o _ => OutflowView.consistent_ofOutflow o

variable {proofs : List MerkleProof} {proof : Groth16Proof} {memo : Option Memo}

theorem length_eq_of_included
    (h : plan.inflow.map (fun u => d.inclusion u.note.hash) = proofs.map .ok) :
    plan.inflow.length = proofs.length := by
  simpa only [List.length_map] using congrArg List.length h

namespace Admits

theorem length_eq (h : d.Admits plan proofs) : plan.inflow.length = proofs.length :=
  length_eq_of_included h.included

/-- Putting the transaction together only counts inputs and outputs. -/
theorem make?_eq (h : d.Admits plan proofs) :
    Transaction.make? (proofs.map d.account.spend) (plan.outflow.map OutflowView.ofOutflow)
        plan.fee proof plan.swap memo =
      if 255 < plan.inflow.length then .error (.tooManyInflows plan.inflow.length)
      else if 255 < plan.outflow.length then .error (.tooManyOutflows plan.outflow.length)
      else .ok (d.transactionOf plan proofs proof memo) := by
  rw [Transaction.make?_map_ofOutflow, List.length_map, h.length_eq]
  rfl

/-- The witness of admitted inputs is built, with the spends in the order of the proofs. -/
theorem build_eq (h : d.Admits plan proofs) :
    Witness.build d.account plan proofs =
      .ok (Witness.ofPlan d.account plan proofs, proofs.map d.account.spend) := by
  refine (Witness.build_eq_ok_iff (Nat.le_of_eq h.length_eq)).mpr ⟨h.viewed, rfl, ?_⟩
  conv => lhs; rw [← List.map_snd_zip (Nat.le_of_eq h.length_eq.symm), List.map_map]
  rfl

end Admits

/-- The steps from the prover on. -/
def finish (d : Desk) (plan : Plan) (proofs : List MerkleProof) (memo : Option Memo)
    (keys : KeyFiles) : Except ShieldError Transaction := do
  let result ← ((d.prover (d.signals plan proofs) keys).toExcept).mapError .prover
  checkSignals (d.signals plan proofs).publicSignals result.publicSignals
  (Transaction.make? (proofs.map d.account.spend) (plan.outflow.map OutflowView.ofOutflow) plan.fee
    result.proof plan.swap memo).mapError .encode

theorem Admits.shield_eq (h : d.Admits plan proofs) :
    d.shield plan encryptTo ephemeral = (do
      let memo ← d.memo plan encryptTo ephemeral
      let keys ← (d.keys plan.inflow.length plan.outflow.length).mapError .keys
      d.finish plan proofs memo keys) := by
  rw [shield, proofsFor_eq_ok_iff.mpr h.included, Except.mapError_ok, Except.ok_bind, h.build_eq]
  rfl

variable {keys : KeyFiles} {result : ProvedSignals}

theorem Prepares.shield_eq (h : d.Prepares plan encryptTo ephemeral proofs memo keys) :
    d.shield plan encryptTo ephemeral = d.finish plan proofs memo keys := by
  rw [h.toAdmits.shield_eq, memo_eq_ok_iff.mpr h.carried, Except.ok_bind, h.keyed,
    Except.mapError_ok, Except.ok_bind]

theorem finish_of_proved (h : d.prover (d.signals plan proofs) keys = .proved result) :
    d.finish plan proofs memo keys = (do
      checkSignals (d.signals plan proofs).publicSignals result.publicSignals
      (Transaction.make? (proofs.map d.account.spend) (plan.outflow.map OutflowView.ofOutflow)
        plan.fee result.proof plan.swap memo).mapError .encode) := by
  rw [finish, h, ProverOutcome.toExcept, Except.mapError_ok, Except.ok_bind]

theorem Proves.shield_eq (h : d.Proves plan encryptTo ephemeral proofs memo keys result) :
    d.shield plan encryptTo ephemeral =
      if 255 < plan.inflow.length then .error (.encode (.tooManyInflows plan.inflow.length))
      else if 255 < plan.outflow.length then
        .error (.encode (.tooManyOutflows plan.outflow.length))
      else .ok (d.transactionOf plan proofs result.proof memo) := by
  have hcheck : checkSignals (d.signals plan proofs).publicSignals result.publicSignals = .ok () :=
    checkSignals_eq_ok_iff.mpr h.agree
  rw [h.toPrepares.shield_eq, finish_of_proved h.proved, hcheck, Except.ok_bind, h.make?_eq]
  split
  · rfl
  · split <;> rfl

/-! ### Shielding -/

theorem shield_of_accepts {tx : Transaction} (h : d.Accepts plan encryptTo ephemeral tx) :
    d.shield plan encryptTo ephemeral = .ok tx := by
  obtain ⟨hproves, hinflow, houtflow⟩ := h
  rw [hproves.shield_eq, if_neg (Nat.not_lt.mpr hinflow), if_neg (Nat.not_lt.mpr houtflow)]

theorem shield_of_refuses {e : ShieldError} (h : d.Refuses plan encryptTo ephemeral e) :
    d.shield plan encryptTo ephemeral = .error e := by
  -- each failure stops the chain at its step, since all steps before it go well
  cases h with
  | inclusion hfirst =>
    rw [shield, proofsFor_eq_error_iff.mpr hfirst, Except.mapError_error, Except.error_bind]
  | notOwner hincluded hu hviews =>
    have hbuild := (Witness.build_eq_error_iff (Nat.le_of_eq (length_eq_of_included hincluded))).mpr
      ⟨fun h => hviews (h _ hu), rfl⟩
    rw [shield, proofsFor_eq_ok_iff.mpr hincluded, Except.mapError_ok, Except.ok_bind, hbuild,
      Except.mapError_error, Except.error_bind]
  | noSuchOutput hadmits hindex houtflow =>
    rw [hadmits.shield_eq, memo_eq_error_iff.mpr ⟨_, hindex, .inl ⟨houtflow, rfl⟩⟩,
      Except.error_bind]
  | memo hadmits hindex ho hencrypt =>
    rw [hadmits.shield_eq, memo_eq_error_iff.mpr ⟨_, hindex, .inr ⟨_, _, ho, hencrypt, rfl⟩⟩,
      Except.error_bind]
  | keys hadmits hcarries hkeys =>
    rw [hadmits.shield_eq, memo_eq_ok_iff.mpr hcarries, Except.ok_bind, hkeys,
      Except.mapError_error, Except.error_bind]
  | failed hprepares hprover =>
    rw [hprepares.shield_eq, finish, hprover, ProverOutcome.toExcept, Except.mapError_error,
      Except.error_bind]
  | crashed hprepares hprover =>
    rw [hprepares.shield_eq, finish, hprover, ProverOutcome.toExcept, Except.mapError_error,
      Except.error_bind]
  | signals hprepares hproved hdiffer =>
    rw [hprepares.shield_eq, finish_of_proved hproved,
      checkSignals_eq_error_iff.mpr ⟨_, hdiffer, rfl⟩, Except.error_bind]
  | inflows hproves hinflow => rw [hproves.shield_eq, if_pos hinflow]
  | outflows hproves hinflow houtflow =>
    rw [hproves.shield_eq, if_neg (Nat.not_lt.mpr hinflow), if_pos houtflow]

theorem Prepares.accepts_or_refuses (h : d.Prepares plan encryptTo ephemeral proofs memo keys) :
    (∃ tx, d.Accepts plan encryptTo ephemeral tx) ∨
      ∃ e, d.Refuses plan encryptTo ephemeral e := by
  cases hprover : d.prover (d.signals plan proofs) keys with
  | failed reason => exact .inr ⟨_, .failed h hprover⟩
  | crashed report => exact .inr ⟨_, .crashed h hprover⟩
  | proved result =>
    cases hcheck : checkSignals (d.signals plan proofs).publicSignals result.publicSignals with
    | error e =>
      obtain ⟨index, hdiffer, -⟩ := checkSignals_eq_error_iff.mp hcheck
      exact .inr ⟨_, .signals h hprover hdiffer⟩
    | ok =>
      have hproves : d.Proves plan encryptTo ephemeral proofs memo keys result :=
        ⟨h, hprover, checkSignals_eq_ok_iff.mp hcheck⟩
      rcases Nat.lt_or_ge 255 plan.inflow.length with hinflow | hinflow
      · exact .inr ⟨_, .inflows hproves hinflow⟩
      · rcases Nat.lt_or_ge 255 plan.outflow.length with houtflow | houtflow
        · exact .inr ⟨_, .outflows hproves hinflow houtflow⟩
        · exact .inl ⟨_, .intro hproves hinflow houtflow⟩

/-- The conditions are complete: either all of them hold, or one is the first to fail. -/
theorem accepts_or_refuses (d : Desk) (plan : Plan) (encryptTo : Option Nat) (ephemeral : Scalar) :
    (∃ tx, d.Accepts plan encryptTo ephemeral tx) ∨
      ∃ e, d.Refuses plan encryptTo ephemeral e := by
  cases hproofs : proofsFor d.inclusion plan.inflow with
  | error cause => exact .inr ⟨_, .inclusion (proofsFor_eq_error_iff.mp hproofs)⟩
  | ok proofs =>
    have hincluded := proofsFor_eq_ok_iff.mp hproofs
    by_cases hviewed : ∀ u ∈ plan.inflow, d.account.Views u
    · have hadmits : d.Admits plan proofs := ⟨hincluded, hviewed⟩
      cases hmemo : d.memo plan encryptTo ephemeral with
      | error e =>
        obtain ⟨index, hindex, ⟨houtflow, -⟩ | ⟨o, cause, ho, hencrypt, -⟩⟩ :=
          memo_eq_error_iff.mp hmemo
        · exact .inr ⟨_, .noSuchOutput hadmits hindex houtflow⟩
        · exact .inr ⟨_, .memo hadmits hindex ho hencrypt⟩
      | ok memo =>
        have hcarries := memo_eq_ok_iff.mp hmemo
        cases hkeys : d.keys plan.inflow.length plan.outflow.length with
        | error cause => exact .inr ⟨_, .keys hadmits hcarries hkeys⟩
        | ok keys => exact Prepares.accepts_or_refuses ⟨hadmits, hcarries, hkeys⟩
    · obtain ⟨u, hu⟩ := Classical.not_forall.mp hviewed
      obtain ⟨hu, hviews⟩ := Classical.not_imp.mp hu
      exact .inr ⟨_, .notOwner hincluded hu hviews⟩

theorem shield_eq_ok_iff {tx : Transaction} :
    d.shield plan encryptTo ephemeral = .ok tx ↔ d.Accepts plan encryptTo ephemeral tx := by
  refine ⟨fun h => ?_, shield_of_accepts⟩
  rcases d.accepts_or_refuses plan encryptTo ephemeral with ⟨tx', haccepts⟩ | ⟨e, hrefuses⟩
  · cases h.symm.trans (shield_of_accepts haccepts)
    exact haccepts
  · cases h.symm.trans (shield_of_refuses hrefuses)

theorem shield_eq_error_iff {e : ShieldError} :
    d.shield plan encryptTo ephemeral = .error e ↔ d.Refuses plan encryptTo ephemeral e := by
  refine ⟨fun h => ?_, shield_of_refuses⟩
  rcases d.accepts_or_refuses plan encryptTo ephemeral with ⟨tx, haccepts⟩ | ⟨e', hrefuses⟩
  · cases h.symm.trans (shield_of_accepts haccepts)
  · cases h.symm.trans (shield_of_refuses hrefuses)
    exact hrefuses

/-- Shielding gives exactly the accepted transactions and fails exactly as it has to, whatever the
source of proofs, the key files and the prover answer.  It never finds an output whose data does not
fit its kind. -/
theorem shield_iff (d : Desk) (plan : Plan) (encryptTo : Option Nat) (ephemeral : Scalar) :
    (∀ tx, d.shield plan encryptTo ephemeral = .ok tx ↔ d.Accepts plan encryptTo ephemeral tx) ∧
      (∀ e, d.shield plan encryptTo ephemeral = .error e ↔
        d.Refuses plan encryptTo ephemeral e) ∧
      ∀ index, d.shield plan encryptTo ephemeral ≠ .error (.encode (.outflowData index)) :=
  ⟨fun _ => shield_eq_ok_iff, fun _ => shield_eq_error_iff,
    fun _ h => nomatch shield_eq_error_iff.mp h⟩

end Desk

end ShieldedWallet
