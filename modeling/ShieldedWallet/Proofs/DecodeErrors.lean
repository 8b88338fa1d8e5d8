/-
Which bytes are no transaction, and why.

A transaction is read by steady readers, and then nothing may be left.  So its
bytes are told apart from their own parts and from themselves with more behind,
and an error says what is wrong at a place that the bytes have.

* `Transaction.readParts` — the reader of transactions, whatever follows them;
* `Transaction.steady_parts`, `Transaction.reads_parts` — it is steady, and reads
  the well-formed transactions, each from its encoding;
* `Transaction.decode_eq_error_iff` — the errors of its own and that of bytes left;
* `Transaction.prefixFree` — every proper part of an encoding is cut off where the
  reader wants more than there is, and what follows an encoding is counted;
* `Transaction.located_of_decode` — what each error says of the bytes, and which
  errors stay when more bytes follow.
-/
import ShieldedWallet.Proofs.Faults
import ShieldedWallet.Proofs.Size

namespace ShieldedWallet.Transaction

open Reader Cursor

/-! ### Steady readers -/

theorem steady_spend : readSpend.Steady :=
  steady_felt.bind fun _ => steady_felt.bind fun _ => steady_pure _

theorem steady_exitData : readExitData.Steady :=
  steady_address.bind fun _ => steady_amount.bind fun _ => steady_address.bind fun _ =>
    steady_amount.bind fun _ => steady_amount.bind fun _ => steady_amount.bind fun _ =>
      steady_pure _

theorem steady_proof : readProof.Steady :=
  steady_amount.bind fun _ => steady_amount.bind fun _ => steady_amount.bind fun _ =>
    steady_amount.bind fun _ => steady_amount.bind fun _ => steady_amount.bind fun _ =>
      steady_amount.bind fun _ => steady_amount.bind fun _ => steady_pure _

theorem two_lt_of_ofCode?_eq_none {code : UInt8} (h : OutflowKind.ofCode? code = none) :
    2 < code.toNat := by
  revert code
  rw [forall_byte_iff]
  decide +kernel

theorem steady_kind : readKind.Steady := by
  intro c
  refine .offset ((steady_byte c).check fun code m hcode => ?_)
  have hspan := (reads_byte.eq_ok_iff.mp hcode).2
  cases hkind : OutflowKind.ofCode? code with
  | some kind => exact .inl ⟨kind, rfl⟩
  | none =>
    exact .inr ⟨_, rfl, .unknownOutflowKind hspan.rest_eq (two_lt_of_ofCode?_eq_none hkind)⟩

theorem steady_outflow : readOutflow.Steady := by
  refine steady_felt.bind fun note => steady_kind.bind fun kind => ?_
  split
  · exact steady_exitData.bind fun data => steady_pure _
  · exact steady_pure _

theorem not_isSwitch_iff {s : UInt8} :
    ¬ IsSwitch s ↔ s &&& ~~~(swapBit ||| (noteBit ||| payloadBit)) ≠ 0 ∨
      s &&& (noteBit ||| payloadBit) = noteBit ||| payloadBit := by
  rw [IsSwitch, not_and_or, ne_eq, not_not]

theorem steady_switch : readSwitch.Steady := by
  intro c
  refine (steady_byte c).check fun switch m hswitch => ?_
  have hspan := (reads_byte.eq_ok_iff.mp hswitch).2
  by_cases hbits : IsSwitch switch
  · exact .inl ⟨switch, if_neg (mt not_isSwitch_iff.mpr (not_not_intro hbits))⟩
  · exact .inr ⟨_, if_pos (not_isSwitch_iff.mp hbits), .unknownSwitchBits hspan.rest_eq hbits⟩

theorem steady_swap (s : UInt8) : (readSwap s).Steady := by
  unfold readSwap
  split
  · exact steady_felt.bind fun swap => steady_pure _
  · exact steady_pure _

theorem steady_payload : readPayload.Steady :=
  steady_short.bind fun _ => (steady_bytes _).bind fun _ => steady_pure _

theorem steady_memo (s : UInt8) : (readMemo s).Steady := by
  unfold readMemo
  split
  · exact (steady_bytes _).bind fun note => steady_pure _
  · split
    · exact steady_payload.bind fun payload => steady_pure _
    · exact steady_pure _

/-! ### Transactions -/

/-- A transaction, whatever is behind it. -/
def readParts : Reader Transaction := do
  let inputs ← Reader.byte
  let inflow ← Reader.times readSpend inputs.toNat
  let outputs ← Reader.byte
  let outflow ← Reader.times readOutflow outputs.toNat
  let fee ← Reader.amount
  let proof ← readProof
  let switch ← readSwitch
  let swap ← readSwap switch
  let memo ← readMemo switch
  return { inflow, outflow, fee, proof, swap, memo }

theorem steady_parts : readParts.Steady :=
  steady_byte.bind fun _ => (steady_spend.times _).bind fun _ => steady_byte.bind fun _ =>
    (steady_outflow.times _).bind fun _ => steady_amount.bind fun _ => steady_proof.bind fun _ =>
      steady_switch.bind fun _ => (steady_swap _).bind fun _ => (steady_memo _).bind fun _ =>
        steady_pure _

/-- Nothing may be left when the parts are read. -/
theorem read_eq : read = (do let tx ← readParts; finish; return tx) := by
  simp only [read, readParts, bind_assoc, pure_bind]

theorem read_eq_ok_iff_parts {c c' : Cursor} {tx : Transaction} :
    read c = .ok (tx, c') ↔ readParts c = .ok (tx, c') ∧ c'.rest = [] := by
  simp only [read_eq, bind_eq_ok_iff, finish_eq_ok_iff, pure_eq_ok_iff]
  constructor
  · rintro ⟨tx', m, hparts, u, m', ⟨hrest, rfl⟩, rfl, rfl⟩
    exact ⟨hparts, hrest⟩
  · rintro ⟨hparts, hrest⟩
    exact ⟨tx, c', hparts, (), c', ⟨hrest, rfl⟩, rfl, rfl⟩

/-- The parts of a transaction are read from its encoding, whatever is behind it. -/
theorem reads_parts : readParts.Reads WellFormed encode := by
  intro c tx c'
  constructor
  · intro h
    -- read again with nothing behind, where the reader of transactions says what the bytes are
    obtain ⟨bs, hspan, hrest⟩ := (steady_parts c).of_ok h
    have hend := hrest []
    rw [List.append_nil] at hend
    obtain ⟨hwell, ⟨hbytes, -⟩, -⟩ := read_eq_ok_iff.mp (read_eq_ok_iff_parts.mpr ⟨hend, rfl⟩)
    have hbs : bs = tx.encode := hbytes.trans (List.append_nil _)
    exact ⟨hwell, hbs ▸ hspan⟩
  · rintro ⟨hwell, hspan⟩
    have hend : read ⟨c.offset, tx.encode⟩ = .ok (tx, ⟨c'.offset, []⟩) :=
      read_eq_ok_iff.mpr ⟨hwell, ⟨(List.append_nil _).symm, hspan.offset_eq⟩, rfl⟩
    have hext := (steady_parts _).extend_ok (read_eq_ok_iff_parts.mp hend).1 c'.rest
    have hwhole : Cursor.extend ⟨c.offset, tx.encode⟩ c'.rest = c := by
      show (⟨c.offset, tx.encode ++ c'.rest⟩ : Cursor) = c
      rw [← hspan.rest_eq]
    rwa [hwhole] at hext

theorem finish_eq_error_iff {c : Cursor} {e : DecodeError} :
    finish c = .error e ↔ c.rest ≠ [] ∧ e = .trailingBytes c.rest.length := by
  unfold finish
  cases hrest : c.rest with
  | nil => simp
  | cons b bs => simp [eq_comm]

/-- Bytes are no transaction because of a fault in them, or because they go on behind one. -/
theorem decode_eq_error_iff {bytes : Bytes} {e : DecodeError} :
    decode bytes = .error e ↔
      readParts ⟨0, bytes⟩ = .error e ∨
        ∃ (tx : Transaction) (more : Bytes), tx.WellFormed ∧ bytes = tx.encode ++ more ∧
          more ≠ [] ∧ e = .trailingBytes more.length := by
  have hrun : decode bytes = .error e ↔ read ⟨0, bytes⟩ = .error e := by
    rw [decode, StateT.run]
    cases read ⟨0, bytes⟩ with
    | error e => simp [Except.map]
    | ok p => simp [Except.map]
  rw [hrun, read_eq, bind_eq_error_iff]
  refine or_congr_right ⟨?_, ?_⟩
  · rintro ⟨tx, m, hparts, hend⟩
    obtain ⟨hwell, hspan⟩ := reads_parts.eq_ok_iff.mp hparts
    rcases bind_eq_error_iff.mp hend with hfinish | ⟨_, _, _, hpure⟩
    · obtain ⟨hmore, rfl⟩ := finish_eq_error_iff.mp hfinish
      exact ⟨tx, m.rest, hwell, hspan.rest_eq, hmore, rfl⟩
    · cases hpure
  · rintro ⟨tx, more, hwell, rfl, hmore, rfl⟩
    have hparts : readParts ⟨0, tx.encode ++ more⟩ = .ok (tx, ⟨0 + tx.encode.length, more⟩) :=
      reads_parts.eq_ok_iff.mpr ⟨hwell, rfl, rfl⟩
    exact ⟨tx, _, hparts, bind_eq_error_iff.mpr (.inl (finish_eq_error_iff.mpr ⟨hmore, rfl⟩))⟩

/-! ### Parts of an encoding, and what follows one -/

theorem decode_take {tx : Transaction} (h : tx.WellFormed) {k : Nat} (hk : k < tx.encode.length) :
    ∃ offset needed, decode (tx.encode.take k) = .error (.truncated offset needed) ∧
      offset ≤ k ∧ k < offset + needed := by
  have hspan : Cursor.Spans ⟨0, tx.encode⟩ tx.encode ⟨0 + tx.encode.length, []⟩ :=
    ⟨(List.append_nil _).symm, rfl⟩
  obtain ⟨offset, needed, hcut, hle, hlt⟩ :=
    steady_parts.truncated_of_cut (reads_parts.eq_ok_iff.mpr ⟨h, hspan⟩) hspan hk
  refine ⟨offset, needed, decode_eq_error_iff.mpr (.inl hcut), ?_, ?_⟩
  · simpa using hle
  · simpa using hlt

theorem decode_append {tx : Transaction} (h : tx.WellFormed) {more : Bytes} (hmore : more ≠ []) :
    decode (tx.encode ++ more) = .error (.trailingBytes more.length) :=
  decode_eq_error_iff.mpr (.inr ⟨tx, more, h, rfl, hmore, rfl⟩)

theorem decode_eq_trailingBytes {bytes : Bytes} {n : Nat}
    (h : decode bytes = .error (.trailingBytes n)) :
    ∃ (tx : Transaction) (more : Bytes), tx.WellFormed ∧ bytes = tx.encode ++ more ∧ more ≠ [] ∧
      n = more.length := by
  rcases decode_eq_error_iff.mp h with hparts | ⟨tx, more, hwell, hbytes, hmore, hn⟩
  · -- the readers of the parts leave it to others what follows
    obtain ⟨-, m, -, hfault, -⟩ := (steady_parts _).of_error hparts
    cases hfault
  · cases hn
    exact ⟨tx, more, hwell, hbytes, hmore, rfl⟩

/-- Of the bytes of a transaction a proper part is refused because at a place in it more bytes are
wanted than it has, and the bytes with others behind are refused with the count of these.  Only
bytes that are those of a transaction but for a last part are refused so. -/
theorem prefixFree :
    (∀ {inflow outflow fee proof swap memo tx},
      make? inflow outflow fee proof swap memo = .ok tx →
        (∀ k < tx.encode.length, ∃ offset needed,
          decode (tx.encode.take k) = .error (.truncated offset needed) ∧
            offset ≤ k ∧ k < offset + needed) ∧
        ∀ more, more ≠ [] → decode (tx.encode ++ more) = .error (.trailingBytes more.length)) ∧
      ∀ bytes n, decode bytes = .error (.trailingBytes n) →
        0 < n ∧ n ≤ bytes.length ∧
          ∃ tx, make? tx.inflow tx.outflow tx.fee tx.proof tx.swap tx.memo = .ok tx ∧
            bytes.take (bytes.length - n) = tx.encode := by
  refine ⟨?_, ?_⟩
  · intro inflow outflow fee proof swap memo tx hmake
    have hwell := (make?_eq_ok_iff.mp hmake).1
    exact ⟨fun k hk => decode_take hwell hk, fun more hmore => decode_append hwell hmore⟩
  · intro bytes n h
    obtain ⟨tx, more, hwell, rfl, hmore, rfl⟩ := decode_eq_trailingBytes h
    rw [List.length_append, Nat.add_sub_cancel, List.take_left]
    exact ⟨List.length_pos_iff.mpr hmore, Nat.le_add_left _ _, tx,
      make?_eq_ok_iff.mpr ⟨hwell, rfl⟩, rfl⟩

/-- Cut behind the root of its input the transaction is too short for the nullifier; with two bytes
more it has two too many. -/
theorem prefixFree_fullTransaction :
    make? fullTransaction.inflow fullTransaction.outflow 12 fullTransaction.proof (some 0)
        fullTransaction.memo = .ok fullTransaction ∧
      (∃ offset needed,
        decode (fullTransaction.encode.take 33) = .error (.truncated offset needed) ∧
          offset ≤ 33 ∧ 33 < offset + needed) ∧
      decode (fullTransaction.encode ++ [0, 0]) = .error (.trailingBytes 2) ∧
      ∃ tx : Transaction, make? tx.inflow tx.outflow tx.fee tx.proof tx.swap tx.memo = .ok tx ∧
        (fullTransaction.encode ++ [0, 0]).take
          ((fullTransaction.encode ++ [0, 0]).length - 2) = tx.encode := by
  have hmake : make? fullTransaction.inflow fullTransaction.outflow 12 fullTransaction.proof
      (some 0) fullTransaction.memo = .ok fullTransaction := rfl
  obtain ⟨hcut, hmore⟩ := prefixFree.1 hmake
  have htwo : decode (fullTransaction.encode ++ [0, 0]) = .error (.trailingBytes 2) :=
    hmore [0, 0] (List.cons_ne_nil _ _)
  obtain ⟨-, -, hwhole⟩ := prefixFree.2 _ _ htwo
  have hlong : 33 < fullTransaction.encode.length := by
    rw [length_encode (make?_eq_ok_iff.mp hmake).1.consistent]
    decide
  exact ⟨hmake, hcut 33 hlong, htwo, hwhole⟩

/-! ### What an error says -/

/-- An error other than that of bytes left is a fault at a place of the bytes. -/
theorem fault_of_decode {bytes : Bytes} {e : DecodeError} (h : decode bytes = .error e)
    (he : ∀ n, e ≠ .trailingBytes n) :
    ∃ (bs : Bytes) (m : Cursor), bytes = bs ++ m.rest ∧ m.offset = bs.length ∧ m.Fault e ∧
      (e.Lasting → ∀ more, decode (bytes ++ more) = .error e) := by
  rcases decode_eq_error_iff.mp h with hparts | ⟨_, more, _, _, _, rfl⟩
  · obtain ⟨bs, m, hspan, hfault, hlast⟩ := (steady_parts _).of_error hparts
    refine ⟨bs, m, hspan.rest_eq, hspan.offset_eq.trans (Nat.zero_add _), hfault, ?_⟩
    exact fun hl more => decode_eq_error_iff.mpr (.inl (hlast hl more))
  · exact absurd rfl (he more.length)

section Located

variable {bytes : Bytes}

theorem nonCanonicalField_of_decode {offset : Nat}
    (h : decode bytes = .error (.nonCanonicalField offset)) :
    offset + 32 ≤ bytes.length ∧ fieldOrder ≤ Bytes.toNatBE ((bytes.drop offset).take 32) := by
  obtain ⟨bs, m, rfl, hoffset, hfault, -⟩ := fault_of_decode h (by simp)
  cases hfault with
  | @nonCanonicalField b rest hrest hlarge =>
    refine ⟨?_, ?_⟩
    · rw [hoffset, hrest, List.length_append, List.length_append, b.length_eq]
      omega
    · rw [hoffset, List.drop_left, hrest, List.take_left' b.length_eq]
      exact hlarge

theorem unknownOutflowKind_of_decode {offset : Nat} {code : UInt8}
    (h : decode bytes = .error (.unknownOutflowKind offset code)) :
    bytes[offset]? = some code ∧ 2 < code.toNat := by
  obtain ⟨bs, m, rfl, hoffset, hfault, -⟩ := fault_of_decode h (by simp)
  cases hfault with
  | unknownOutflowKind hrest hcode =>
    refine ⟨?_, hcode⟩
    rw [hoffset, hrest]
    simp

theorem unknownSwitchBits_of_decode {switch : UInt8}
    (h : decode bytes = .error (.unknownSwitchBits switch)) :
    switch ∈ bytes ∧ (switch &&& ~~~0b111 ≠ 0 ∨ switch &&& 0b110 = 0b110) := by
  obtain ⟨bs, m, rfl, -, hfault, -⟩ := fault_of_decode h (by simp)
  cases hfault with
  | unknownSwitchBits hrest hbits =>
    refine ⟨?_, not_isSwitch_iff.mp hbits⟩
    rw [hrest]
    simp

theorem truncated_of_decode {offset needed : Nat}
    (h : decode bytes = .error (.truncated offset needed)) :
    offset ≤ bytes.length ∧ bytes.length < offset + needed := by
  obtain ⟨bs, m, rfl, hoffset, hfault, -⟩ := fault_of_decode h (by simp)
  cases hfault with
  | truncated hfew =>
    rw [hoffset, List.length_append]
    omega

theorem decode_append_of_lasting {e : DecodeError} (he : e.Lasting) (h : decode bytes = .error e)
    (more : Bytes) : decode (bytes ++ more) = .error e := by
  have htrailing : ∀ n, e ≠ .trailingBytes n := by
    rintro n rfl
    cases he
  obtain ⟨-, -, -, -, -, hlast⟩ := fault_of_decode h htrailing
  exact hlast he more

end Located

/-- An error says of the bytes: which 32 of them, all there, are at least the order of the field;
which byte is above the codes of kinds; that a switch has a bit outside its three or both of a memo;
or where more bytes are wanted than there are.  All but the last of these stay, whatever follows
the bytes. -/
theorem located_of_decode (bytes : Bytes) :
    (∀ offset, decode bytes = .error (.nonCanonicalField offset) →
      offset + 32 ≤ bytes.length ∧
        fieldOrder ≤ Bytes.toNatBE ((bytes.drop offset).take 32)) ∧
    (∀ offset code, decode bytes = .error (.unknownOutflowKind offset code) →
      bytes[offset]? = some code ∧ 2 < code.toNat) ∧
    (∀ switch, decode bytes = .error (.unknownSwitchBits switch) →
      switch ∈ bytes ∧ (switch &&& ~~~0b111 ≠ 0 ∨ switch &&& 0b110 = 0b110)) ∧
    (∀ offset needed, decode bytes = .error (.truncated offset needed) →
      offset ≤ bytes.length ∧ bytes.length < offset + needed) ∧
    ∀ e more, e.Lasting → decode bytes = .error e → decode (bytes ++ more) = .error e :=
  ⟨fun _ => nonCanonicalField_of_decode, fun _ _ => unknownOutflowKind_of_decode,
    fun _ => unknownSwitchBits_of_decode, fun _ _ => truncated_of_decode,
    fun _ more he h => decode_append_of_lasting he h more⟩

/-- A root that is too large, also with a byte behind it; an output of a fourth kind; a switch that
announces both memos; and the end of the bytes where the outputs should be counted. -/
theorem located_of_decode_malformed :
    (decode (1 :: List.replicate 32 255) = .error (.nonCanonicalField 1) ∧
      fieldOrder ≤ Bytes.toNatBE (((1 :: List.replicate 32 255).drop 1).take 32) ∧
      decode (1 :: List.replicate 32 255 ++ [7]) = .error (.nonCanonicalField 1)) ∧
    (decode ([0, 1] ++ List.replicate 32 0 ++ [3]) = .error (.unknownOutflowKind 34 3) ∧
      ([0, 1] ++ List.replicate 32 0 ++ [3] : Bytes)[34]? = some 3) ∧
    (decode ([0, 0] ++ List.replicate 288 0 ++ [6]) = .error (.unknownSwitchBits 6) ∧
      ((6 : UInt8) &&& ~~~0b111 ≠ 0 ∨ (6 : UInt8) &&& 0b110 = 0b110)) ∧
    decode [0] = .error (.truncated 1 1) ∧ 1 ≤ ([0] : Bytes).length ∧
      ([0] : Bytes).length < 1 + 1 := by
  have hfield : decode (1 :: List.replicate 32 255) = .error (.nonCanonicalField 1) := rfl
  have hkind : decode ([0, 1] ++ List.replicate 32 0 ++ [3]) = .error (.unknownOutflowKind 34 3) :=
    rfl
  have hswitch : decode ([0, 0] ++ List.replicate 288 0 ++ [6]) = .error (.unknownSwitchBits 6) :=
    rfl
  have hshort : decode [0] = .error (.truncated 1 1) := rfl
  obtain ⟨hlarge, -, -, -, hlast⟩ := located_of_decode (1 :: List.replicate 32 255)
  obtain ⟨-, hcode, -⟩ := located_of_decode ([0, 1] ++ List.replicate 32 0 ++ [3])
  obtain ⟨-, -, hbits, -⟩ := located_of_decode ([0, 0] ++ List.replicate 288 0 ++ [6])
  obtain ⟨-, -, -, hend, -⟩ := located_of_decode [0]
  exact ⟨⟨hfield, (hlarge 1 hfield).2, hlast _ [7] (.nonCanonicalField 1) hfield⟩,
    ⟨hkind, (hcode 34 3 hkind).1⟩, ⟨hswitch, (hbits 6 hswitch).2⟩, hshort, hend 1 1 hshort⟩

end ShieldedWallet.Transaction
