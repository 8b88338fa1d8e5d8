/-
Payloads say what they were built from.

A payload is a selector and a body.  A batch has the encrypted notes as its body;
an offer has 74 bytes of fixed fields, the signature, zeros up to a multiple of
81, and the notes.

* `MemoPayload.ofBytes_eq_ok_iff`, `MemoPayload.ofBytes_eq_error_iff` — only the
  length decides whether bytes are a payload;
* `MemoPayload.parse_eq_of_notesSelector`, `MemoPayload.parse_eq_of_prepaymentSelector`
  — what is parsed behind each selector;
* `MemoPayload.isLeast_paddedLength` — the signature takes the least multiple of 81
  that holds it;
* `MemoPayload.parsePrepayment_prepaymentBody` — the fields of an offer are read
  back, whatever the length of its signature;
* `MemoPayload.parse_of_built` — batches and offers that fit are built and parsed
  back, and those that do not are refused.

Design notes: an offer is told from a batch by its selector, so the two digests
are computed here, each once.
-/
import Mathlib.Order.Bounds.Basic
import ShieldedWallet.Proofs.Outcome
import ShieldedWallet.Transaction.Memo

namespace ShieldedWallet.MemoPayload

/-! ### Bytes of a payload -/

theorem ofBytes_eq_ok_iff {bytes : Bytes} {p : MemoPayload} :
    ofBytes bytes = .ok p ↔ p.bytes = bytes := by
  unfold ofBytes
  constructor
  · intro h
    split at h
    · cases h
      rfl
    · cases h
  · rintro rfl
    exact dif_pos p.length_lt

theorem exists_ofBytes_iff {bytes : Bytes} :
    (∃ p, ofBytes bytes = .ok p) ↔ bytes.length ≤ 65535 := by
  simp only [ofBytes_eq_ok_iff]
  constructor
  · rintro ⟨p, rfl⟩
    exact Nat.le_of_lt_succ p.length_lt
  · intro h
    exact ⟨⟨bytes, Nat.lt_succ_of_le h⟩, rfl⟩

theorem ofBytes_eq_error_iff {bytes : Bytes} {e : MemoError} :
    ofBytes bytes = .error e ↔ 65535 < bytes.length ∧ e = .tooLong bytes.length := by
  unfold ofBytes
  split
  case isTrue h =>
    have hle : ¬ 65535 < bytes.length := Nat.not_lt.mpr (Nat.le_of_lt_succ h)
    simp [hle]
  case isFalse h =>
    have hlt : 65535 < bytes.length := Nat.lt_of_succ_le (Nat.le_of_not_lt h)
    simp [hlt, eq_comm]

/-! ### Selectors -/

theorem length_selectorOf (signature : String) :
    (selectorOf signature).length = selectorLength := by
  rw [selectorOf, List.length_take, FixedBytes.length_eq]
  rfl

theorem notesSelector_eq : notesSelector = [0xa0, 0xc9, 0x48, 0x0e] := by decide +kernel

theorem prepaymentSelector_eq : prepaymentSelector = [0x0e, 0xb5, 0x01, 0x5d] := by
  decide +kernel

section Selected

variable {p : MemoPayload} {selector body : Bytes}

theorem parse_eq (hbytes : p.bytes = selector ++ body) (hlen : selector.length = selectorLength) :
    p.parse =
      if selector = notesSelector ∨ selector = notesShortSelector then
        (parseNotes body).map .notes
      else if selector = prepaymentSelector ∨ selector = prepaymentShortSelector then
        (parsePrepayment body).map .prepayment
      else .error (.unknownSelector selector) := by
  have hlong : ¬ p.bytes.length < selectorLength := by
    rw [hbytes, List.length_append, hlen]
    omega
  rw [parse, if_neg hlong]
  simp only [hbytes, List.take_left' hlen, List.drop_left' hlen]

theorem parse_eq_of_notesSelector (hbytes : p.bytes = notesSelector ++ body) :
    p.parse = (parseNotes body).map .notes := by
  rw [parse_eq hbytes (length_selectorOf _), if_pos (.inl rfl)]

theorem parse_eq_of_prepaymentSelector (hbytes : p.bytes = prepaymentSelector ++ body) :
    p.parse = (parsePrepayment body).map .prepayment := by
  have hnotes :
      ¬ (prepaymentSelector = notesSelector ∨ prepaymentSelector = notesShortSelector) := by
    rw [prepaymentSelector_eq, notesSelector_eq]
    decide
  rw [parse_eq hbytes (length_selectorOf _), if_neg hnotes, if_pos (.inl rfl)]

end Selected

/-! ### Batches -/

theorem takeNotes_noteBytes (cs : List EncryptedNote) :
    takeNotes cs.length (noteBytes cs) = cs := by
  induction cs with
  | nil => rfl
  | cons c cs ih =>
    have hbytes : noteBytes (c :: cs) = c.toList ++ noteBytes cs := List.flatMap_cons
    rw [List.length_cons, takeNotes, hbytes, FixedBytes.ofListPadded_append,
      List.drop_left' c.length_eq, ih]

theorem length_noteBytes (cs : List EncryptedNote) :
    (noteBytes cs).length = cs.length * encryptedNoteLength := by
  simp only [noteBytes, List.length_flatMap, FixedBytes.length_eq, List.map_const',
    List.sum_replicate_nat]

theorem parseNotes_noteBytes (cs : List EncryptedNote) : parseNotes (noteBytes cs) = .ok cs := by
  have hpos : 0 < encryptedNoteLength := by decide
  rw [parseNotes, length_noteBytes, Nat.mul_mod_left, Nat.mul_div_cancel _ hpos,
    takeNotes_noteBytes, if_neg (not_not_intro rfl)]

/-- The content of a batch is the notes it was written from. -/
theorem parse_ofNotes {cs : List EncryptedNote} {p : MemoPayload} (h : ofNotes cs = .ok p) :
    p.parse = .ok (.notes cs) := by
  rw [parse_eq_of_notesSelector (ofBytes_eq_ok_iff.mp h), parseNotes_noteBytes]
  rfl

theorem length_ofNotes (cs : List EncryptedNote) :
    (notesSelector ++ noteBytes cs).length = 4 + 81 * cs.length := by
  rw [List.length_append, length_noteBytes, notesSelector, length_selectorOf, selectorLength,
    encryptedNoteLength, Nat.mul_comm]

/-! ### Offers -/

theorem dvd_paddedLength (n : Nat) : 81 ∣ paddedLength n := Nat.dvd_mul_left _ _

theorem le_paddedLength (n : Nat) : n ≤ paddedLength n := by
  show n ≤ (n + 81 - 1) / 81 * 81
  omega

/-- The signature takes the least multiple of 81 that holds it. -/
theorem isLeast_paddedLength (n : Nat) : IsLeast {k | n ≤ k ∧ 81 ∣ k} (paddedLength n) := by
  refine ⟨⟨le_paddedLength n, dvd_paddedLength n⟩, ?_⟩
  rintro k ⟨hle, m, rfl⟩
  show (n + 81 - 1) / 81 * 81 ≤ 81 * m
  omega

/-- The signature with the zeros that fill it up. -/
def signatureField (signature : Bytes) : Bytes :=
  signature ++ List.replicate (paddedLength signature.length - signature.length) 0

theorem length_signatureField (signature : Bytes) :
    (signatureField signature).length = paddedLength signature.length := by
  rw [signatureField, List.length_append, List.length_replicate]
  exact Nat.add_sub_cancel' (le_paddedLength _)

theorem take_signatureField (signature : Bytes) :
    (signatureField signature).take signature.length = signature := List.take_left

theorem any_drop_signatureField (signature : Bytes) :
    ((signatureField signature).drop signature.length).any (· ≠ 0) = false := by
  rw [signatureField, List.drop_left]
  simp

section Offer

variable (record : Prepayment)

theorem prepaymentBody_eq :
    prepaymentBody record =
      record.feeEth.toBytesBE.toList ++ (record.feeToken.toBytesBE.toList ++
        (Bytes.ofNatBE 8 record.expiration.toNat ++ (Bytes.ofNatBE 2 record.signature.length ++
          (signatureField record.signature ++ noteBytes record.notes)))) := by
  simp only [prepaymentBody, signatureField, List.append_assoc]

theorem length_prepaymentBody :
    (prepaymentBody record).length =
      prepaymentHeader + paddedLength record.signature.length + 81 * record.notes.length := by
  simp only [prepaymentBody_eq, List.length_append, length_noteBytes, length_signatureField,
    FixedBytes.length_eq, Bytes.length_ofNatBE, encryptedNoteLength, prepaymentHeader]
  omega

/-! The body behind each of its fixed fields. -/

theorem drop_feeEth :
    (prepaymentBody record).drop 32 =
      record.feeToken.toBytesBE.toList ++ (Bytes.ofNatBE 8 record.expiration.toNat ++
        (Bytes.ofNatBE 2 record.signature.length ++
          (signatureField record.signature ++ noteBytes record.notes))) := by
  rw [prepaymentBody_eq]
  exact List.drop_left' (FixedBytes.length_eq _)

theorem drop_feeToken :
    (prepaymentBody record).drop 64 =
      Bytes.ofNatBE 8 record.expiration.toNat ++ (Bytes.ofNatBE 2 record.signature.length ++
        (signatureField record.signature ++ noteBytes record.notes)) := by
  rw [show 64 = 32 + 32 from rfl, ← List.drop_drop, drop_feeEth]
  exact List.drop_left' (FixedBytes.length_eq _)

theorem drop_expiration :
    (prepaymentBody record).drop 72 =
      Bytes.ofNatBE 2 record.signature.length ++
        (signatureField record.signature ++ noteBytes record.notes) := by
  rw [show 72 = 64 + 8 from rfl, ← List.drop_drop, drop_feeToken]
  exact List.drop_left' (Bytes.length_ofNatBE _ _)

theorem drop_prepaymentHeader :
    (prepaymentBody record).drop prepaymentHeader =
      signatureField record.signature ++ noteBytes record.notes := by
  rw [show prepaymentHeader = 72 + 2 from rfl, ← List.drop_drop, drop_expiration]
  exact List.drop_left' (Bytes.length_ofNatBE _ _)

variable {record}

/-- The fields of an offer are read back from the bytes that write them. -/
theorem parsePrepayment_prepaymentBody (h : record.signature.length ≤ 65535) :
    parsePrepayment (prepaymentBody record) = .ok record := by
  have hlong : ¬ (prepaymentBody record).length < prepaymentHeader := by
    rw [length_prepaymentBody]
    omega
  have hrest : ¬ (signatureField record.signature ++ noteBytes record.notes).length <
      paddedLength record.signature.length := by
    rw [List.length_append, length_signatureField]
    omega
  have hcount : Bytes.toNatBE (((prepaymentBody record).drop 72).take 2) =
      record.signature.length := by
    rw [drop_expiration, List.take_left' (Bytes.length_ofNatBE _ _), Bytes.toNatBE_ofNatBE]
    exact Nat.mod_eq_of_lt (Nat.lt_succ_of_le h)
  have hexpiration : Bytes.toNatBE (((prepaymentBody record).drop 64).take 8) =
      record.expiration.toNat := by
    rw [drop_feeToken, List.take_left' (Bytes.length_ofNatBE _ _), Bytes.toNatBE_ofNatBE]
    exact Nat.mod_eq_of_lt record.expiration.toNat_lt
  have hfeeEth : FixedBytes.ofListPadded 32 (prepaymentBody record) = record.feeEth.toBytesBE := by
    rw [prepaymentBody_eq, FixedBytes.ofListPadded_append]
  have hfeeToken : FixedBytes.ofListPadded 32 ((prepaymentBody record).drop 32) =
      record.feeToken.toBytesBE := by
    rw [drop_feeEth, FixedBytes.ofListPadded_append]
  have htake : (signatureField record.signature ++ noteBytes record.notes).take
      (paddedLength record.signature.length) = signatureField record.signature :=
    List.take_left' (length_signatureField _)
  have hdrop : (signatureField record.signature ++ noteBytes record.notes).drop
      (paddedLength record.signature.length) = noteBytes record.notes :=
    List.drop_left' (length_signatureField _)
  rw [parsePrepayment, if_neg hlong]
  simp only [hcount, drop_prepaymentHeader, if_neg hrest, htake, hdrop, any_drop_signatureField,
    parseNotes_noteBytes, hexpiration, hfeeEth, hfeeToken, take_signatureField,
    Amount.ofBytesBE_toBytesBE, UInt64.ofNat_toNat]
  rfl

end Offer

/-! ### What is built -/

theorem ofPrepayment_eq {record : Prepayment} (h : record.signature.length ≤ 65535) :
    ofPrepayment record = ofBytes (prepaymentSelector ++ prepaymentBody record) :=
  if_neg (Nat.not_le.mpr (Nat.lt_succ_of_le h))

theorem ofPrepayment_eq_error {record : Prepayment} (h : 65535 < record.signature.length) :
    ofPrepayment record = .error (.signatureTooLong record.signature.length) :=
  if_pos h

theorem ofPrepayment_eq_signatureTooLong_iff {record : Prepayment} {n : Nat} :
    ofPrepayment record = .error (.signatureTooLong n) ↔
      65535 < record.signature.length ∧ n = record.signature.length := by
  by_cases h : record.signature.length ≤ 65535
  · rw [ofPrepayment_eq h, ofBytes_eq_error_iff]
    constructor
    · rintro ⟨-, ⟨⟩⟩
    · rintro ⟨hlong, -⟩
      exact absurd hlong (Nat.not_lt.mpr h)
  · have hlong : 65535 < record.signature.length := Nat.lt_of_not_le h
    rw [ofPrepayment_eq_error hlong]
    simp [hlong, eq_comm]

theorem length_offer (record : Prepayment) :
    (prepaymentSelector ++ prepaymentBody record).length =
      78 + paddedLength record.signature.length + 81 * record.notes.length := by
  rw [List.length_append, length_prepaymentBody, prepaymentSelector, length_selectorOf,
    selectorLength, prepaymentHeader]
  omega

/-- What is built of an offer is parsed as the offer. -/
theorem parse_ofPrepayment {record : Prepayment} {p : MemoPayload}
    (h : ofPrepayment record = .ok p) : p.parse = .ok (.prepayment record) := by
  by_cases hsignature : record.signature.length ≤ 65535
  · rw [ofPrepayment_eq hsignature] at h
    rw [parse_eq_of_prepaymentSelector (ofBytes_eq_ok_iff.mp h),
      parsePrepayment_prepaymentBody hsignature]
    rfl
  · rw [ofPrepayment_eq_error (Nat.lt_of_not_le hsignature)] at h
    cases h

/-- Batches of notes are built exactly if they fit behind two bytes of length, and parsed back.
Offers are refused for their signature exactly if it has more than 65535 bytes, else for their
length exactly if that, with the signature in the least multiple of 81 that holds it, is more; else
they are built and parsed back. -/
theorem parse_of_built :
    (∀ notes : List EncryptedNote,
      ((∃ p, ofNotes notes = .ok p) ↔ 4 + 81 * notes.length ≤ 65535) ∧
        ∀ p, ofNotes notes = .ok p → p.parse = .ok (.notes notes)) ∧
    ∀ record : Prepayment,
      IsLeast {k | record.signature.length ≤ k ∧ 81 ∣ k} (paddedLength record.signature.length) ∧
      ((∃ n, ofPrepayment record = .error (.signatureTooLong n)) ↔
        65535 < record.signature.length) ∧
      (record.signature.length ≤ 65535 →
        ((∃ n, ofPrepayment record = .error (.tooLong n)) ↔
          65535 < 78 + paddedLength record.signature.length + 81 * record.notes.length) ∧
        (78 + paddedLength record.signature.length + 81 * record.notes.length ≤ 65535 →
          ∃ p, ofPrepayment record = .ok p ∧ p.parse = .ok (.prepayment record))) := by
  refine ⟨fun notes => ⟨?_, fun p => parse_ofNotes⟩, fun record =>
    ⟨isLeast_paddedLength _, ?_, fun hsignature => ⟨?_, fun hfits => ?_⟩⟩⟩
  · rw [← length_ofNotes]
    exact exists_ofBytes_iff
  · simp only [ofPrepayment_eq_signatureTooLong_iff, exists_and_left, exists_eq, and_true]
  · rw [ofPrepayment_eq hsignature, ← length_offer]
    simp only [ofBytes_eq_error_iff, MemoError.tooLong.injEq, exists_and_left, exists_eq, and_true]
  · rw [← length_offer] at hfits
    obtain ⟨p, hp⟩ := exists_ofBytes_iff.mpr hfits
    rw [← ofPrepayment_eq hsignature] at hp
    exact ⟨p, hp, parse_ofPrepayment hp⟩

/-- An offer with a signature of given length and no notes. -/
def offerSigned (length : Nat) : Prepayment where
  feeEth := 15
  feeToken := 4
  expiration := 1735689600
  signature := List.replicate length 7
  notes := []

/-- There is room for 809 notes and no more, and for a signature of 65448 bytes; one of 65449 needs
81 bytes that are not there. -/
theorem parse_of_built_full :
    (∃ p, ofNotes (List.replicate 809 (.ofListPadded _ [])) = .ok p ∧
      p.parse = .ok (.notes (List.replicate 809 (.ofListPadded _ [])))) ∧
    (∃ p, ofPrepayment (offerSigned 65448) = .ok p ∧
      p.parse = .ok (.prepayment (offerSigned 65448))) ∧
    ∃ n, ofPrepayment (offerSigned 65449) = .error (.tooLong n) := by
  have hlen (length : Nat) : (offerSigned length).signature.length = length :=
    List.length_replicate
  obtain ⟨hbuilt, hparsed⟩ := parse_of_built.1 (List.replicate 809 (.ofListPadded _ []))
  obtain ⟨p, hp⟩ := hbuilt.mpr (by rw [List.length_replicate]; decide)
  obtain ⟨-, -, hfits⟩ := parse_of_built.2 (offerSigned 65448)
  obtain ⟨-, -, hlong⟩ := parse_of_built.2 (offerSigned 65449)
  rw [hlen] at hfits hlong
  exact ⟨⟨p, hp, hparsed p hp⟩, (hfits (by decide)).2 (by decide),
    (hlong (by decide)).1.mpr (by decide)⟩

end ShieldedWallet.MemoPayload
