/-
The size of a transaction.

The size is told from counts alone: of inputs, of outputs, of outputs that leave
the pool, with a swap or without, and from the kind and length of the memo.  It
is the count of the bytes that are written.

* `OutflowView.length_encode`, `Memo.length_encode`, ... — the bytes of each part;
* `Transaction.length_encode` — a transaction whose outputs show what their kinds
  show takes as many bytes as its size says;
* `Transaction.size_eq_length_encode` — so does every transaction that was made of
  its parts or read from bytes.
-/
import ShieldedWallet.Proofs.Wire

namespace ShieldedWallet

/-! ### Bytes of the parts -/

theorem Spend.length_encode (s : Spend) : s.encode.length = 64 := by
  simp [encode]

theorem OutflowView.length_encode {o : OutflowView} (h : o.Consistent) :
    o.encode.length = 33 + if o.kind.isPublic then ExitData.byteLength else 0 := by
  rw [Consistent] at h
  rw [encode, List.length_append, List.length_cons, FixedBytes.length_eq, ← h]
  cases o.data with
  | none => rfl
  | some d =>
    rw [Option.map_some, Option.getD_some, ExitData.length_toBytes, Option.isSome_some, if_pos rfl]
    omega

theorem Groth16Proof.length_encode (p : Groth16Proof) : p.encode.length = byteLength := by
  simp [encode, byteLength]

theorem Memo.length_encode (m : Memo) : m.encode.length = m.wireLength := by
  cases m with
  | note c => exact c.length_eq
  | payload p => rw [encode, wireLength, List.length_append, Bytes.length_ofNatBE]

/-- Outputs take 33 bytes each, and those that leave the pool the bytes of their data. -/
theorem length_flatMap_outflow {views : List OutflowView} (h : ∀ o ∈ views, o.Consistent) :
    (views.flatMap OutflowView.encode).length =
      views.length * 33 + views.countP (fun o => o.kind.isPublic) * ExitData.byteLength := by
  induction views with
  | nil => rfl
  | cons o views ih =>
    obtain ⟨ho, hrest⟩ := List.forall_mem_cons.mp h
    rw [List.flatMap_cons, List.length_append, OutflowView.length_encode ho, ih hrest,
      List.length_cons, List.countP_cons, Nat.add_mul, Nat.add_mul]
    by_cases hpublic : o.kind.isPublic
    · rw [if_pos hpublic, if_pos hpublic]
      omega
    · rw [if_neg hpublic, if_neg hpublic]
      omega

namespace Transaction

/-! ### Bytes of the whole -/

/-- The size of a transaction is the count of its bytes. -/
theorem length_encode {tx : Transaction} (h : ∀ o ∈ tx.outflow, o.Consistent) :
    tx.encode.length = tx.size := by
  have hinflow : (tx.inflow.flatMap Spend.encode).length = tx.inflow.length * 64 := by
    simp only [List.length_flatMap, Spend.length_encode, List.map_const', List.sum_replicate_nat]
  have hswap : ((tx.swap.map fun s => s.toBytesBE.toList).getD []).length =
      if tx.swap.isSome then 32 else 0 := by
    cases tx.swap <;> simp
  have hmemo : ((tx.memo.map Memo.encode).getD []).length = tx.memoLength := by
    rw [memoLength]
    cases tx.memo with
    | none => rfl
    | some m => exact m.length_encode
  simp only [encode, List.length_append, List.length_cons, hinflow, length_flatMap_outflow h,
    FixedBytes.length_eq, Groth16Proof.length_encode, hswap, hmemo, size, estimateSize,
    publicCount, Bool.false_eq_true, if_false]
  omega

variable {tx : Transaction}

theorem memoLength_eq (tx : Transaction) :
    tx.memoLength = match tx.memo with
      | none => 0
      | some (.note _) => 81
      | some (.payload p) => 2 + p.bytes.length := by
  rw [memoLength]
  rcases tx.memo with _ | note | payload <;> rfl

/-- Room for a memo of one encrypted note is what such a memo takes. -/
theorem size_of_note {c : EncryptedNote} (h : tx.memo = some (.note c)) :
    tx.size =
      estimateSize tx.inflow.length tx.outflow.length tx.publicCount tx.swap.isSome true := by
  rw [size, memoLength_eq, h]
  rfl

/-- What was made of its parts or read from bytes shows data where its kinds do. -/
theorem consistent_of_made_or_read
    (h : (∃ inflow outflow fee proof swap memo,
        make? inflow outflow fee proof swap memo = .ok tx) ∨ ∃ bytes, decode bytes = .ok tx) :
    ∀ o ∈ tx.outflow, o.Consistent := by
  rcases h with ⟨inflow, outflow, fee, proof, swap, memo, hmake⟩ | ⟨bytes, hread⟩
  · exact (make?_eq_ok_iff.mp hmake).1.consistent
  · exact (decode_eq_ok_iff.mp hread).1.consistent

/-- A transaction that was made of its parts or read from bytes takes as many bytes as its size
says: those of its shape, and of the memo none, 81, or two more than the payload has.  With a memo
of one encrypted note this is the size estimated with room for one. -/
theorem size_eq_length_encode
    (h : (∃ inflow outflow fee proof swap memo,
        make? inflow outflow fee proof swap memo = .ok tx) ∨ ∃ bytes, decode bytes = .ok tx) :
    tx.size = tx.encode.length ∧
      tx.encode.length =
        estimateSize tx.inflow.length tx.outflow.length
            (tx.outflow.countP fun o => decide (o.kind ≠ .plain)) tx.swap.isSome false +
          (match tx.memo with
            | none => 0
            | some (.note _) => 81
            | some (.payload p) => 2 + p.bytes.length) ∧
      ∀ c, tx.memo = some (.note c) →
        tx.encode.length =
          estimateSize tx.inflow.length tx.outflow.length
            (tx.outflow.countP fun o => decide (o.kind ≠ .plain)) tx.swap.isSome true := by
  have hlen : tx.encode.length = tx.size := length_encode (consistent_of_made_or_read h)
  refine ⟨hlen.symm, ?_, fun c hc => ?_⟩
  · rw [hlen, size, memoLength_eq]
    rfl
  · rw [hlen, size_of_note hc]
    rfl

/-- A transaction of every part whose memo is one encrypted note. -/
def notedTransaction : Transaction :=
  { fullTransaction with memo := some (.note (.ofListPadded _ [])) }

/-- Inputs of 64 bytes and outputs of 33, one of them with 168 more, the fee, the proof, the switch,
the swap and the note. -/
theorem size_eq_length_encode_notedTransaction :
    make? notedTransaction.inflow notedTransaction.outflow 12 notedTransaction.proof (some 0)
        notedTransaction.memo = .ok notedTransaction ∧
      notedTransaction.size = notedTransaction.encode.length ∧
        notedTransaction.encode.length = 1 + 64 + 1 + 2 * 33 + 168 + 32 + 256 + 1 + 32 + 81 := by
  have hmake : make? notedTransaction.inflow notedTransaction.outflow 12 notedTransaction.proof
      (some 0) notedTransaction.memo = .ok notedTransaction := rfl
  obtain ⟨hsize, -, hnote⟩ := size_eq_length_encode (.inl ⟨_, _, _, _, _, _, hmake⟩)
  exact ⟨hmake, hsize, hnote _ rfl⟩

end Transaction

end ShieldedWallet
