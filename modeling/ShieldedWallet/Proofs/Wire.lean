/-
The wire format is exact.

Bytes are read as a transaction exactly if the transaction can be written and
the bytes are the ones that write it:

* `Transaction.read_eq_ok_iff` — the reader of transactions gives the
  well-formed ones, each from its encoding, with nothing behind it;
* `Transaction.decode_eq_ok_iff` — the same for whole byte strings;
* `Transaction.decode_encode_of_make?` — what was made and written is read back;
* `Transaction.encode_of_decode` — what was read is well-formed, and it is
  written by the bytes it was read from and by no others.

Design notes: the switch byte is read before the parts that it announces.  A
byte is the switch of a transaction exactly if its reader accepts it and it
announces the transaction's swap and memo (`Transaction.eq_switch_iff`), which
is checked over all bytes for each form of the two parts.
-/
import ShieldedWallet.Proofs.Reading
import ShieldedWallet.Transaction.Wire

namespace ShieldedWallet.Transaction

open Reader Cursor

/-! ### Inputs, outputs and proofs -/

theorem reads_spend : readSpend.Reads (fun _ => True) Spend.encode := by
  intro c s c'
  simp only [readSpend, bind_eq_ok_iff, pure_eq_ok_iff, reads_felt.eq_ok_iff, true_and,
    Spend.encode, spans_append_iff]
  constructor
  · rintro ⟨root, m, hroot, nullifier, m', hnullifier, rfl, rfl⟩
    exact ⟨m, hroot, hnullifier⟩
  · rintro ⟨m, hroot, hnullifier⟩
    exact ⟨s.root, m, hroot, s.nullifier, c', hnullifier, rfl, rfl⟩

theorem reads_exitData : readExitData.Reads (fun _ => True) ExitData.toBytes := by
  intro c d c'
  simp only [readExitData, bind_eq_ok_iff, pure_eq_ok_iff, reads_address.eq_ok_iff,
    reads_amount.eq_ok_iff, true_and, ExitData.toBytes, spans_append_iff]
  constructor
  · rintro ⟨destination, m₁, h₁, eth, m₂, h₂, token, m₃, h₃, amount, m₄, h₄, tokenId, m₅, h₅,
      fee, m₆, h₆, rfl, rfl⟩
    exact ⟨m₅, ⟨m₄, ⟨m₃, ⟨m₂, ⟨m₁, h₁, h₂⟩, h₃⟩, h₄⟩, h₅⟩, h₆⟩
  · rintro ⟨m₅, ⟨m₄, ⟨m₃, ⟨m₂, ⟨m₁, h₁, h₂⟩, h₃⟩, h₄⟩, h₅⟩, h₆⟩
    exact ⟨_, m₁, h₁, _, m₂, h₂, _, m₃, h₃, _, m₄, h₄, _, m₅, h₅, _, c', h₆, rfl, rfl⟩

theorem reads_proof : readProof.Reads (fun _ => True) Groth16Proof.encode := by
  intro c p c'
  simp only [readProof, bind_eq_ok_iff, pure_eq_ok_iff, reads_amount.eq_ok_iff, true_and,
    Groth16Proof.encode, spans_append_iff]
  constructor
  · rintro ⟨ax, m₁, h₁, ay, m₂, h₂, b01, m₃, h₃, b00, m₄, h₄, b11, m₅, h₅, b10, m₆, h₆,
      cx, m₇, h₇, cy, m₈, h₈, rfl, rfl⟩
    exact ⟨m₇, ⟨m₆, ⟨m₅, ⟨m₄, ⟨m₃, ⟨m₂, ⟨m₁, h₁, h₂⟩, h₃⟩, h₄⟩, h₅⟩, h₆⟩, h₇⟩, h₈⟩
  · rintro ⟨m₇, ⟨m₆, ⟨m₅, ⟨m₄, ⟨m₃, ⟨m₂, ⟨m₁, h₁, h₂⟩, h₃⟩, h₄⟩, h₅⟩, h₆⟩, h₇⟩, h₈⟩
    exact ⟨_, m₁, h₁, _, m₂, h₂, _, m₃, h₃, _, m₄, h₄, _, m₅, h₅, _, m₆, h₆, _, m₇, h₇,
      _, c', h₈, rfl, rfl⟩

theorem reads_kind : readKind.Reads (fun _ => True) (fun k => [k.code]) := by
  intro c k c'
  rw [readKind, offset_bind, bind_eq_ok_iff]
  simp only [reads_byte.eq_ok_iff, true_and]
  constructor
  · rintro ⟨code, m, hspan, hread⟩
    cases hkind : OutflowKind.ofCode? code with
    | none =>
      rw [hkind] at hread
      exact absurd hread throw_ne_ok
    | some k' =>
      rw [hkind] at hread
      obtain ⟨rfl, rfl⟩ := pure_eq_ok_iff.mp hread
      rwa [OutflowKind.ofCode?_eq_some hkind] at hspan
  · intro hspan
    refine ⟨k.code, c', hspan, ?_⟩
    rw [OutflowKind.ofCode?_code]
    rfl

/-- Data is read exactly behind the kinds that leave the pool. -/
theorem reads_outflow : readOutflow.Reads OutflowView.Consistent OutflowView.encode := by
  intro c o c'
  have hencode : o.encode = o.note.toBytesBE.toList ++ [o.kind.code] ++
      (o.data.map ExitData.toBytes).getD [] := by
    rw [OutflowView.encode, List.append_assoc, List.singleton_append]
  simp only [readOutflow, bind_eq_ok_iff, reads_felt.eq_ok_iff, reads_kind.eq_ok_iff, true_and,
    hencode, spans_append_iff]
  constructor
  · rintro ⟨note, m, hnote, kind, m', hkind, hread⟩
    split at hread
    · rename_i hpublic
      obtain ⟨data, m'', hdata, hpure⟩ := bind_eq_ok_iff.mp hread
      obtain ⟨rfl, rfl⟩ := pure_eq_ok_iff.mp hpure
      exact ⟨hpublic.symm, m', ⟨m, hnote, hkind⟩, (reads_exitData.eq_ok_iff.mp hdata).2⟩
    · rename_i hplain
      obtain ⟨rfl, rfl⟩ := pure_eq_ok_iff.mp hread
      exact ⟨(Bool.eq_false_iff.mpr hplain).symm, c', ⟨m, hnote, hkind⟩, spans_nil_iff.mpr rfl⟩
  · rintro ⟨hconsistent, m', ⟨m, hnote, hkind⟩, hdata⟩
    refine ⟨o.note, m, hnote, o.kind, m', hkind, ?_⟩
    rw [OutflowView.Consistent] at hconsistent
    rw [← hconsistent]
    obtain ⟨note, kind, data⟩ := o
    cases data with
    | none =>
      obtain rfl := spans_nil_iff.mp hdata
      rfl
    | some data =>
      exact bind_eq_ok_iff.mpr ⟨data, c', reads_exitData.eq_ok_iff.mpr ⟨trivial, hdata⟩, rfl⟩

/-! ### The switch and what it announces -/

/-- Has no bit without a meaning and announces at most one memo. -/
def IsSwitch (s : UInt8) : Prop :=
  s &&& ~~~(swapBit ||| (noteBit ||| payloadBit)) = 0 ∧
    s &&& (noteBit ||| payloadBit) ≠ noteBit ||| payloadBit

/-- The byte says which memo there is. -/
def Announces (s : UInt8) : Option Memo → Prop
  | none => s &&& noteBit = 0 ∧ s &&& payloadBit = 0
  | some (.note _) => s &&& noteBit ≠ 0
  | some (.payload _) => s &&& noteBit = 0 ∧ s &&& payloadBit ≠ 0

theorem forall_byte_iff {P : UInt8 → Prop} : (∀ s, P s) ↔ ∀ i : Fin 256, P (UInt8.ofFin i) := by
  constructor
  · exact fun h i => h _
  · exact fun h s => h s.toFin

/-- A byte is the switch of a transaction exactly if it is one at all and announces the
transaction's swap and memo. -/
theorem eq_switch_iff (tx : Transaction) (s : UInt8) :
    s = tx.switch ↔
      IsSwitch s ∧ (tx.swap.isSome ↔ s &&& swapBit ≠ 0) ∧ Announces s tx.memo := by
  revert s
  unfold switch IsSwitch Announces
  rw [forall_byte_iff]
  -- only the form of the two parts matters, so each form is checked over all bytes
  rcases tx.swap with _ | swap <;> rcases tx.memo with _ | note | payload <;>
    simp only [Option.isSome] <;> decide +kernel

theorem reads_switch : readSwitch.Reads IsSwitch (fun s => [s]) := by
  intro c s c'
  simp only [readSwitch, bind_eq_ok_iff, reads_byte.eq_ok_iff, true_and]
  constructor
  · rintro ⟨s', m, hspan, hread⟩
    split at hread
    · exact absurd hread throw_ne_ok
    · rename_i hbits
      obtain ⟨rfl, rfl⟩ := pure_eq_ok_iff.mp hread
      rw [not_or, Decidable.not_not] at hbits
      exact ⟨hbits, hspan⟩
  · rintro ⟨⟨hspare, hmemo⟩, hspan⟩
    refine ⟨s, c', hspan, ?_⟩
    rw [if_neg (not_or.mpr ⟨not_not_intro hspare, hmemo⟩)]
    rfl

theorem reads_swap (s : UInt8) :
    (readSwap s).Reads (fun swap => swap.isSome ↔ s &&& swapBit ≠ 0)
      (fun swap => (swap.map fun a => a.toBytesBE.toList).getD []) := by
  intro c swap c'
  unfold readSwap
  split
  · rename_i hbit
    simp only [bind_eq_ok_iff, pure_eq_ok_iff, reads_felt.eq_ok_iff, true_and]
    constructor
    · rintro ⟨a, m, hspan, rfl, rfl⟩
      exact ⟨iff_of_true rfl hbit, hspan⟩
    · rintro ⟨hannounced, hspan⟩
      obtain ⟨a, rfl⟩ := Option.isSome_iff_exists.mp (hannounced.mpr hbit)
      exact ⟨a, c', hspan, rfl, rfl⟩
  · rename_i hbit
    rw [pure_eq_ok_iff]
    constructor
    · rintro ⟨rfl, rfl⟩
      exact ⟨iff_of_false Bool.false_ne_true hbit, spans_nil_iff.mpr rfl⟩
    · rintro ⟨hannounced, hspan⟩
      obtain rfl := Option.not_isSome_iff_eq_none.mp (mt hannounced.mp hbit)
      exact ⟨rfl, spans_nil_iff.mp hspan⟩

theorem reads_payload :
    readPayload.Reads (fun _ => True) (fun p => Memo.encode (.payload p)) := by
  intro c p c'
  simp only [readPayload, bind_eq_ok_iff, pure_eq_ok_iff, reads_short.eq_ok_iff,
    (reads_bytes _).eq_ok_iff, true_and, Memo.encode, spans_append_iff]
  constructor
  · rintro ⟨length, m, hlength, b, m', hb, rfl, rfl⟩
    refine ⟨m, ?_, hb⟩
    rwa [b.length_eq]
  · rintro ⟨m, hlength, hbytes⟩
    have hcount : (UInt16.ofNat p.bytes.length).toNat = p.bytes.length :=
      UInt16.toNat_ofNat_of_lt' p.length_lt
    refine ⟨UInt16.ofNat p.bytes.length, m, ?_, ⟨p.bytes, hcount.symm⟩, c', hbytes, rfl, rfl⟩
    rwa [hcount]

theorem reads_memo (s : UInt8) :
    (readMemo s).Reads (Announces s) (fun memo => (memo.map Memo.encode).getD []) := by
  intro c memo c'
  unfold readMemo
  -- the bit of the encrypted note is looked at first
  split
  · rename_i hnote
    simp only [bind_eq_ok_iff, pure_eq_ok_iff, (reads_bytes _).eq_ok_iff, true_and]
    constructor
    · rintro ⟨note, m, hspan, rfl, rfl⟩
      exact ⟨hnote, hspan⟩
    · rintro ⟨hannounced, hspan⟩
      match memo with
      | none => exact absurd hannounced.1 hnote
      | some (.note note) => exact ⟨note, c', hspan, rfl, rfl⟩
      | some (.payload _) => exact absurd hannounced.1 hnote
  · rename_i hnote
    rw [Decidable.not_not] at hnote
    split
    · rename_i hpayload
      simp only [bind_eq_ok_iff, pure_eq_ok_iff, reads_payload.eq_ok_iff, true_and]
      constructor
      · rintro ⟨payload, m, hspan, rfl, rfl⟩
        exact ⟨⟨hnote, hpayload⟩, hspan⟩
      · rintro ⟨hannounced, hspan⟩
        match memo with
        | none => exact absurd hannounced.2 hpayload
        | some (.note _) => exact absurd hnote hannounced
        | some (.payload payload) => exact ⟨payload, c', hspan, rfl, rfl⟩
    · rename_i hpayload
      rw [Decidable.not_not] at hpayload
      rw [pure_eq_ok_iff]
      constructor
      · rintro ⟨rfl, rfl⟩
        exact ⟨⟨hnote, hpayload⟩, spans_nil_iff.mpr rfl⟩
      · rintro ⟨hannounced, hspan⟩
        match memo with
        | none => exact ⟨rfl, spans_nil_iff.mp hspan⟩
        | some (.note _) => exact absurd hnote hannounced
        | some (.payload _) => exact absurd hpayload hannounced.2

/-! ### Transactions -/

/-- The lists fit the bytes that count them, and each output shows what its kind shows. -/
theorem wellFormed_iff {tx : Transaction} :
    tx.WellFormed ↔ tx.inflow.length ≤ 255 ∧ tx.outflow.length ≤ 255 ∧
      ∀ o ∈ tx.outflow, o.Consistent :=
  ⟨fun h => ⟨h.inflow_le, h.outflow_le, h.consistent⟩, fun ⟨h₁, h₂, h₃⟩ => ⟨h₁, h₂, h₃⟩⟩

/-- A byte that counts a list is that of its length, and the length fits. -/
theorem eq_toNat_iff {n : Nat} {b : UInt8} : n = b.toNat ↔ n ≤ 255 ∧ b = UInt8.ofNat n := by
  constructor
  · rintro rfl
    exact ⟨Nat.le_of_lt_succ b.toNat_lt, UInt8.ofNat_toNat.symm⟩
  · rintro ⟨hle, rfl⟩
    exact (UInt8.toNat_ofNat_of_lt' (Nat.lt_succ_of_le hle)).symm

/-- The reader of transactions gives the well-formed ones, each from its bytes, if nothing is
behind them. -/
theorem read_eq_ok_iff {c c' : Cursor} {tx : Transaction} :
    read c = .ok (tx, c') ↔ tx.WellFormed ∧ c.Spans tx.encode c' ∧ c'.rest = [] := by
  have hencode : tx.encode =
      [UInt8.ofNat tx.inflow.length] ++ tx.inflow.flatMap Spend.encode ++
        ([UInt8.ofNat tx.outflow.length] ++ tx.outflow.flatMap OutflowView.encode) ++
        tx.fee.toBytesBE.toList ++ tx.proof.encode ++
        ([tx.switch] ++ (tx.swap.map fun a => a.toBytesBE.toList).getD []) ++
        (tx.memo.map Memo.encode).getD [] := rfl
  simp only [read, bind_eq_ok_iff, pure_eq_ok_iff, finish_eq_ok_iff, reads_byte.eq_ok_iff,
    (reads_spend.times _).eq_ok_iff, (reads_outflow.times _).eq_ok_iff, reads_amount.eq_ok_iff,
    reads_proof.eq_ok_iff, reads_switch.eq_ok_iff, (reads_swap _).eq_ok_iff,
    (reads_memo _).eq_ok_iff, true_and, hencode, spans_append_iff, wellFormed_iff]
  -- the counts and the switch are read before what they say, and determined by it afterwards
  constructor
  · rintro ⟨inputs, m₁, h₁, inflow, m₂, ⟨⟨hinputs, -⟩, h₂⟩, outputs, m₃, h₃, outflow, m₄,
      ⟨⟨houtputs, hconsistent⟩, h₄⟩, fee, m₅, h₅, proof, m₆, h₆, switch, m₇, ⟨hswitch, h₇⟩,
      swap, m₈, ⟨hswap, h₈⟩, memo, m₉, ⟨hmemo, h₉⟩, _, m₁₀, ⟨hend, rfl⟩, rfl, rfl⟩
    obtain ⟨hinflow, rfl⟩ := eq_toNat_iff.mp hinputs
    obtain ⟨houtflow, rfl⟩ := eq_toNat_iff.mp houtputs
    obtain rfl := (eq_switch_iff ⟨inflow, outflow, fee, proof, swap, memo⟩ switch).mpr
      ⟨hswitch, hswap, hmemo⟩
    exact ⟨⟨hinflow, houtflow, hconsistent⟩, ⟨m₈, ⟨m₆, ⟨m₅, ⟨m₄, ⟨m₂, ⟨m₁, h₁, h₂⟩, m₃, h₃, h₄⟩,
      h₅⟩, h₆⟩, m₇, h₇, h₈⟩, h₉⟩, hend⟩
  · rintro ⟨⟨hinflow, houtflow, hconsistent⟩, ⟨m₈, ⟨m₆, ⟨m₅, ⟨m₄, ⟨m₂, ⟨m₁, h₁, h₂⟩, m₃, h₃, h₄⟩,
      h₅⟩, h₆⟩, m₇, h₇, h₈⟩, h₉⟩, hend⟩
    obtain ⟨hswitch, hswap, hmemo⟩ := (eq_switch_iff tx tx.switch).mp rfl
    exact ⟨_, m₁, h₁, tx.inflow, m₂, ⟨⟨eq_toNat_iff.mpr ⟨hinflow, rfl⟩, fun _ _ => trivial⟩, h₂⟩,
      _, m₃, h₃, tx.outflow, m₄, ⟨⟨eq_toNat_iff.mpr ⟨houtflow, rfl⟩, hconsistent⟩, h₄⟩,
      tx.fee, m₅, h₅, tx.proof, m₆, h₆, tx.switch, m₇, ⟨hswitch, h₇⟩, tx.swap, m₈, ⟨hswap, h₈⟩,
      tx.memo, c', ⟨hmemo, h₉⟩, (), c', ⟨hend, rfl⟩, rfl, rfl⟩

/-- Bytes are those of a transaction exactly if it is well-formed and they are its encoding. -/
theorem decode_eq_ok_iff {bytes : Bytes} {tx : Transaction} :
    decode bytes = .ok tx ↔ tx.WellFormed ∧ bytes = tx.encode := by
  have hrun : decode bytes = .ok tx ↔ ∃ c', read ⟨0, bytes⟩ = .ok (tx, c') := by
    rw [decode, StateT.run]
    cases read ⟨0, bytes⟩ with
    | error e => simp [Except.map]
    | ok p => simp [Except.map, Prod.ext_iff]
  rw [hrun]
  constructor
  · rintro ⟨c', hread⟩
    obtain ⟨hwell, ⟨hrest, -⟩, hend⟩ := read_eq_ok_iff.mp hread
    rw [hend, List.append_nil] at hrest
    exact ⟨hwell, hrest⟩
  · rintro ⟨hwell, rfl⟩
    exact ⟨⟨0 + tx.encode.length, []⟩,
      read_eq_ok_iff.mpr ⟨hwell, ⟨(List.append_nil _).symm, rfl⟩, rfl⟩⟩

/-! ### Making and writing -/

theorem findIdx?_consistent_eq_none_iff {views : List OutflowView} :
    (views.findIdx? fun o => !decide o.Consistent) = none ↔ ∀ o ∈ views, o.Consistent := by
  rw [List.findIdx?_eq_none_iff]
  simp

/-- The check of a transaction whose outputs show what their kinds show only counts. -/
theorem check_of_consistent {tx : Transaction} (h : ∀ o ∈ tx.outflow, o.Consistent) :
    tx.check =
      if 255 < tx.inflow.length then .error (.tooManyInflows tx.inflow.length)
      else if 255 < tx.outflow.length then .error (.tooManyOutflows tx.outflow.length)
      else .ok tx := by
  rw [check, findIdx?_consistent_eq_none_iff.mpr h]
  rfl

theorem check_eq_ok_iff {tx tx' : Transaction} : tx.check = .ok tx' ↔ tx.WellFormed ∧ tx' = tx := by
  constructor
  · intro h
    unfold check at h
    split at h
    · cases h
    · rename_i hinflow
      split at h
      · cases h
      · rename_i houtflow
        split at h
        · cases h
        · rename_i hviews
          cases h
          exact ⟨⟨Nat.le_of_not_lt hinflow, Nat.le_of_not_lt houtflow,
            findIdx?_consistent_eq_none_iff.mp hviews⟩, rfl⟩
  · rintro ⟨hwell, rfl⟩
    obtain ⟨hinflow, houtflow, hconsistent⟩ := wellFormed_iff.mp hwell
    rw [check_of_consistent hconsistent, if_neg (Nat.not_lt.mpr hinflow),
      if_neg (Nat.not_lt.mpr houtflow)]

variable {inflow : List Spend} {outflow : List OutflowView} {fee : Amount} {proof : Groth16Proof}
  {swap : Option Felt} {memo : Option Memo} {tx : Transaction}

theorem make?_eq_ok_iff :
    make? inflow outflow fee proof swap memo = .ok tx ↔
      tx.WellFormed ∧ tx = { inflow, outflow, fee, proof, swap, memo } := by
  rw [make?, check_eq_ok_iff]
  constructor
  · rintro ⟨hwell, rfl⟩
    exact ⟨hwell, rfl⟩
  · rintro ⟨hwell, rfl⟩
    exact ⟨hwell, rfl⟩

/-- Outputs show what their kinds show, so putting a transaction together only counts. -/
theorem make?_map_ofOutflow (inflow : List Spend) (os : List Outflow) :
    make? inflow (os.map OutflowView.ofOutflow) fee proof swap memo =
      if 255 < inflow.length then .error (.tooManyInflows inflow.length)
      else if 255 < os.length then .error (.tooManyOutflows os.length)
      else .ok ⟨inflow, os.map OutflowView.ofOutflow, fee, proof, swap, memo⟩ := by
  have hconsistent : ∀ o ∈ os.map OutflowView.ofOutflow, o.Consistent :=
    List.forall_mem_map.mpr fun o _ => OutflowView.consistent_ofOutflow o
  rw [make?, check_of_consistent hconsistent]
  simp only [List.length_map]

/-- A transaction made of its parts has these parts and is read back from the bytes that write
it. -/
theorem decode_encode_of_make? (h : make? inflow outflow fee proof swap memo = .ok tx) :
    tx = { inflow, outflow, fee, proof, swap, memo } ∧ decode tx.encode = .ok tx := by
  obtain ⟨hwell, hparts⟩ := make?_eq_ok_iff.mp h
  exact ⟨hparts, decode_eq_ok_iff.mpr ⟨hwell, rfl⟩⟩

/-- A transaction of every part: a plain output, a withdrawal, the swap zero and a payload. -/
def fullTransaction : Transaction where
  inflow := [⟨3, 5⟩]
  outflow := [⟨7, .plain, none⟩, ⟨8, .withdrawal, some { ExitData.zero with eth := 9, fee := 2 }⟩]
  fee := 12
  proof := ⟨1, 2, 3, 4, 5, 6, 7, 8⟩
  swap := some 0
  memo := some (.payload ⟨[0, 0, 0, 0, 1], by decide⟩)

theorem decode_encode_fullTransaction :
    make? fullTransaction.inflow fullTransaction.outflow 12 fullTransaction.proof (some 0)
        fullTransaction.memo = .ok fullTransaction ∧
      decode fullTransaction.encode = .ok fullTransaction :=
  have h : make? fullTransaction.inflow fullTransaction.outflow 12 fullTransaction.proof (some 0)
      fullTransaction.memo = .ok fullTransaction := rfl
  ⟨h, (decode_encode_of_make? h).2⟩

/-- Bytes that are read as a transaction are the ones that write it, the transaction could have
been made of its parts, and no other bytes are read as the same transaction. -/
theorem encode_of_decode {bytes : Bytes} (h : decode bytes = .ok tx) :
    tx.encode = bytes ∧
      make? tx.inflow tx.outflow tx.fee tx.proof tx.swap tx.memo = .ok tx ∧
      tx.inflow.length ≤ 255 ∧ tx.outflow.length ≤ 255 ∧
      (∀ o ∈ tx.outflow, o.data.isSome ↔ o.kind = .withdrawal ∨ o.kind = .migration) ∧
      (∀ p, tx.memo = some (.payload p) → p.bytes.length ≤ 65535) ∧
      ∀ bytes', decode bytes' = .ok tx → bytes' = bytes := by
  obtain ⟨hwell, rfl⟩ := decode_eq_ok_iff.mp h
  refine ⟨rfl, make?_eq_ok_iff.mpr ⟨hwell, rfl⟩, hwell.inflow_le, hwell.outflow_le, ?_, ?_, ?_⟩
  · intro o ho
    rw [hwell.consistent o ho]
    cases o.kind <;> decide
  · intro p _
    exact Nat.le_of_lt_succ p.length_lt
  · intro bytes' h'
    exact (decode_eq_ok_iff.mp h').2

theorem encode_of_decode_fullTransaction :
    decode fullTransaction.encode = .ok fullTransaction ∧
      ∀ bytes, decode bytes = .ok fullTransaction → bytes = fullTransaction.encode :=
  have h : decode fullTransaction.encode = .ok fullTransaction :=
    decode_eq_ok_iff.mpr ⟨⟨by decide, by decide, by decide⟩, rfl⟩
  ⟨h, (encode_of_decode h).2.2.2.2.2.2⟩

end ShieldedWallet.Transaction
