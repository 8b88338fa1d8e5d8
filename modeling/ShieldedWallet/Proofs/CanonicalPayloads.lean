/-
Payloads have one spelling behind their selector.

Nothing in the body of a payload is passed over in reading: a batch is as many
whole notes as there are, and the fields of an offer, with the zeros behind its
signature and its notes, take up all of its bytes.  So what is read is what was
written, and writing it again gives the bytes back.

* `MemoPayload.parseNotes_eq_ok_iff`, `MemoPayload.parsePrepayment_eq_ok_iff` —
  reading a body accepts exactly what writing produces;
* `MemoPayload.parse_cases` — what a payload can say, and behind which selectors;
* `MemoPayload.parse_eq_notes_iff`, `MemoPayload.parse_eq_prepayment_iff` — the
  payloads of a batch, and of an offer;
* `MemoPayload.canonical_of_parse` — what a payload says is written in the
  payload's bytes, but for the selector.

Design notes: the two selectors of a kind are the one thing that is forgotten in
reading, so payloads that say the same may differ in it and in nothing else.
-/
import ShieldedWallet.Proofs.Payloads

namespace ShieldedWallet.MemoPayload

/-! ### Batches -/

theorem noteBytes_takeNotes {k : Nat} {body : Bytes}
    (h : body.length = k * encryptedNoteLength) : noteBytes (takeNotes k body) = body := by
  induction k generalizing body with
  | zero =>
    rw [Nat.zero_mul] at h
    rw [List.eq_nil_of_length_eq_zero h]
    rfl
  | succ k ih =>
    rw [Nat.succ_mul] at h
    have hlong : encryptedNoteLength ≤ body.length := by omega
    have hrest : (body.drop encryptedNoteLength).length = k * encryptedNoteLength := by
      rw [List.length_drop]
      omega
    rw [takeNotes, noteBytes, List.flatMap_cons, FixedBytes.toList_ofListPadded_of_le hlong]
    rw [← noteBytes, ih hrest, List.take_append_drop]

/-- Reading a batch accepts exactly what writing it produces. -/
theorem parseNotes_eq_ok_iff {body : Bytes} {cs : List EncryptedNote} :
    parseNotes body = .ok cs ↔ body = noteBytes cs := by
  constructor
  · intro h
    unfold parseNotes at h
    split at h
    · cases h
    · rename_i hmod
      cases h
      refine (noteBytes_takeNotes ?_).symm
      have hdvd : encryptedNoteLength ∣ body.length :=
        Nat.dvd_of_mod_eq_zero (Classical.not_not.mp hmod)
      exact (Nat.div_mul_cancel hdvd).symm
  · rintro rfl
    exact parseNotes_noteBytes cs

/-! ### Offers -/

theorem eq_signatureField {field : Bytes} {length : Nat}
    (hlength : field.length = paddedLength length)
    (hpadding : (field.drop length).any (· ≠ 0) = false) :
    field = signatureField (field.take length) := by
  have hle : length ≤ field.length := hlength ▸ le_paddedLength length
  have htake : (field.take length).length = length := List.length_take_of_le hle
  have hzeros : field.drop length = List.replicate (paddedLength length - length) 0 := by
    refine List.eq_replicate_iff.mpr ⟨by rw [List.length_drop, hlength], fun b hb => ?_⟩
    simpa using List.any_eq_false.mp hpadding b hb
  rw [signatureField, htake, ← hzeros, List.take_append_drop]

/-- The bytes of an offer, cut where its fixed fields end. -/
theorem eq_fields {body : Bytes} :
    body = body.take 32 ++ ((body.drop 32).take 32 ++ ((body.drop 64).take 8 ++
      ((body.drop 72).take 2 ++ body.drop prepaymentHeader))) := by
  have hcut (i n : Nat) : (body.drop i).take n ++ body.drop (i + n) = body.drop i := by
    rw [← List.drop_drop, List.take_append_drop]
  rw [show prepaymentHeader = 72 + 2 from rfl, hcut 72 2, hcut 64 8, hcut 32 32,
    List.take_append_drop]

theorem toBytesBE_amount {bytes : Bytes} (h : 32 ≤ bytes.length) :
    (Amount.ofBytesBE (.ofListPadded 32 bytes)).toBytesBE.toList = bytes.take 32 := by
  rw [Amount.toBytesBE_ofBytesBE, FixedBytes.toList_ofListPadded_of_le h]

theorem ofNatBE_toNatBE_take {w : Nat} {bytes : Bytes} (h : w ≤ bytes.length) :
    Bytes.ofNatBE w (Bytes.toNatBE (bytes.take w)) = bytes.take w := by
  have hread := Bytes.ofNatBE_toNatBE (bytes.take w)
  rwa [List.length_take_of_le h] at hread

/-- The fields of an offer stand in the bytes one after the other. -/
structure Spells (body : Bytes) (record : Prepayment) : Prop where
  signature_le : record.signature.length ≤ 65535
  feeEth : record.feeEth.toBytesBE.toList = body.take 32
  feeToken : record.feeToken.toBytesBE.toList = (body.drop 32).take 32
  expiration : Bytes.ofNatBE 8 record.expiration.toNat = (body.drop 64).take 8
  count : Bytes.ofNatBE 2 record.signature.length = (body.drop 72).take 2
  rest : signatureField record.signature ++ noteBytes record.notes = body.drop prepaymentHeader

theorem Spells.eq_prepaymentBody {body : Bytes} {record : Prepayment} (h : Spells body record) :
    body = prepaymentBody record := by
  rw [prepaymentBody_eq, h.feeEth, h.feeToken, h.expiration, h.count, h.rest]
  exact eq_fields

theorem spells_of_parsePrepayment {body : Bytes} {record : Prepayment}
    (h : parsePrepayment body = .ok record) : Spells body record := by
  unfold parsePrepayment at h
  split at h
  case isTrue => cases h
  case isFalse hlong =>
    have hheader : 74 ≤ body.length := Nat.le_of_not_lt hlong
    have hbehind (i n : Nat) (hi : i + n ≤ 74) : n ≤ (body.drop i).length := by
      rw [List.length_drop]
      omega
    -- each field is as wide as it is written again
    let count := Bytes.toNatBE ((body.drop 72).take 2)
    let rest := body.drop prepaymentHeader
    have hcount : count < 256 ^ 2 := by
      have hlt := Bytes.toNatBE_lt ((body.drop 72).take 2)
      rwa [List.length_take_of_le (hbehind 72 2 (by decide))] at hlt
    have hseconds : Bytes.toNatBE ((body.drop 64).take 8) < 2 ^ 64 := by
      have hlt := Bytes.toNatBE_lt ((body.drop 64).take 8)
      rwa [List.length_take_of_le (hbehind 64 8 (by decide))] at hlt
    simp only at h
    split at h
    case isTrue => cases h
    case isFalse hrest =>
      split at h
      case isTrue => cases h
      case isFalse hpadding =>
        obtain ⟨notes, hnotes, hrecord⟩ := Except.bind_eq_ok_iff.mp h
        cases hrecord
        have hfield : (rest.take (paddedLength count)).length = paddedLength count :=
          List.length_take_of_le (Nat.le_of_not_lt hrest)
        have hsignature : ((rest.take (paddedLength count)).take count).length = count := by
          rw [List.length_take, hfield]
          exact Nat.min_eq_left (le_paddedLength count)
        refine ⟨?_, toBytesBE_amount (hbehind 0 32 (by decide)),
          toBytesBE_amount (hbehind 32 32 (by decide)), ?_, ?_, ?_⟩
        · exact hsignature.trans_le (Nat.le_of_lt_succ hcount)
        · show Bytes.ofNatBE 8 (UInt64.ofNat (Bytes.toNatBE ((body.drop 64).take 8))).toNat = _
          rw [UInt64.toNat_ofNat_of_lt' hseconds, ofNatBE_toNatBE_take (hbehind 64 8 (by decide))]
        · show Bytes.ofNatBE 2 ((rest.take (paddedLength count)).take count).length = _
          rw [hsignature, ofNatBE_toNatBE_take (hbehind 72 2 (by decide))]
        · show signatureField ((rest.take (paddedLength count)).take count) ++ noteBytes notes = rest
          rw [← eq_signatureField hfield (by simpa using hpadding),
            ← parseNotes_eq_ok_iff.mp hnotes, List.take_append_drop]

/-- Reading an offer accepts exactly what writing it produces. -/
theorem parsePrepayment_eq_ok_iff {body : Bytes} {record : Prepayment} :
    parsePrepayment body = .ok record ↔
      record.signature.length ≤ 65535 ∧ body = prepaymentBody record := by
  constructor
  · intro h
    have hspells := spells_of_parsePrepayment h
    exact ⟨hspells.signature_le, hspells.eq_prepaymentBody⟩
  · rintro ⟨hlength, rfl⟩
    exact parsePrepayment_prepaymentBody hlength

/-! ### Payloads -/

theorem notesSelectors_disjoint {selector : Bytes}
    (h : selector = prepaymentSelector ∨ selector = prepaymentShortSelector) :
    ¬ (selector = notesSelector ∨ selector = notesShortSelector) := by
  rw [prepaymentSelector_eq] at h
  rw [notesSelector_eq]
  rcases h with rfl | rfl <;> decide

section Payload

variable {p q : MemoPayload} {cs : List EncryptedNote} {record : Prepayment}
variable {content : MemoContent}

theorem selectorLength_le_of_parse (h : p.parse = .ok content) :
    selectorLength ≤ p.bytes.length := by
  by_contra hshort
  rw [parse, if_pos (Nat.lt_of_not_le hshort)] at h
  cases h

/-- All that a payload can say: a batch behind one of its selectors, or an offer behind one of its
own. -/
theorem parse_cases (h : p.parse = .ok content) :
    ((p.bytes.take 4 = notesSelector ∨ p.bytes.take 4 = notesShortSelector) ∧
        ∃ cs, content = .notes cs ∧ p.bytes.drop 4 = noteBytes cs) ∨
      ((p.bytes.take 4 = prepaymentSelector ∨ p.bytes.take 4 = prepaymentShortSelector) ∧
        ∃ record, content = .prepayment record ∧ record.signature.length ≤ 65535 ∧
          p.bytes.drop 4 = prepaymentBody record) := by
  have hlong := selectorLength_le_of_parse h
  rw [parse_eq (List.take_append_drop 4 p.bytes).symm (List.length_take_of_le hlong)] at h
  split at h
  case isTrue hselector =>
    obtain ⟨cs, hcs, rfl⟩ := Except.map_eq_ok_iff.mp h
    exact .inl ⟨hselector, cs, rfl, parseNotes_eq_ok_iff.mp hcs⟩
  case isFalse =>
    split at h
    case isTrue hselector =>
      obtain ⟨record, hrecord, rfl⟩ := Except.map_eq_ok_iff.mp h
      exact .inr ⟨hselector, record, rfl, parsePrepayment_eq_ok_iff.mp hrecord⟩
    case isFalse => cases h

theorem length_of_selector {signature : String} {short selector : Bytes}
    (hshort : short.length = selectorLength)
    (h : selector = selectorOf signature ∨ selector = short) :
    selector.length = selectorLength := by
  rcases h with rfl | rfl
  · exact length_selectorOf signature
  · exact hshort

theorem parse_eq_notes_iff :
    p.parse = .ok (.notes cs) ↔
      (p.bytes.take 4 = notesSelector ∨ p.bytes.take 4 = notesShortSelector) ∧
        p.bytes.drop 4 = noteBytes cs := by
  constructor
  · intro h
    rcases parse_cases h with ⟨hselector, cs', hcontent, hbody⟩ | ⟨-, record, hcontent, -⟩
    · cases hcontent
      exact ⟨hselector, hbody⟩
    · cases hcontent
  · rintro ⟨hselector, hbody⟩
    have hbytes : p.bytes = p.bytes.take 4 ++ noteBytes cs := by
      rw [← hbody, List.take_append_drop]
    rw [parse_eq hbytes (length_of_selector rfl hselector), if_pos hselector, parseNotes_noteBytes]
    rfl

theorem parse_eq_prepayment_iff :
    p.parse = .ok (.prepayment record) ↔
      (p.bytes.take 4 = prepaymentSelector ∨ p.bytes.take 4 = prepaymentShortSelector) ∧
        record.signature.length ≤ 65535 ∧ p.bytes.drop 4 = prepaymentBody record := by
  constructor
  · intro h
    rcases parse_cases h with ⟨-, cs, hcontent, -⟩ | ⟨hselector, record', hcontent, hbody⟩
    · cases hcontent
    · cases hcontent
      exact ⟨hselector, hbody⟩
  · rintro ⟨hselector, hlength, hbody⟩
    have hbytes : p.bytes = p.bytes.take 4 ++ prepaymentBody record := by
      rw [← hbody, List.take_append_drop]
    -- the selectors of offers are none of those of batches
    rw [parse_eq hbytes (length_of_selector rfl hselector),
      if_neg (notesSelectors_disjoint hselector), if_pos hselector,
      parsePrepayment_prepaymentBody hlength]
    rfl

/-- The bytes behind a selector stay a payload behind any other. -/
theorem exists_ofBytes_reselected {selector : Bytes} (hlen : selector.length = selectorLength)
    (h : p.parse = .ok content) :
    ∃ q, ofBytes (selector ++ p.bytes.drop 4) = .ok q ∧ q.bytes = selector ++ p.bytes.drop 4 := by
  have hshort : (selector ++ p.bytes.drop 4).length ≤ 65535 := by
    have hlong := selectorLength_le_of_parse h
    have hlt : p.bytes.length < 65536 := p.length_lt
    have hfour : selectorLength = 4 := rfl
    rw [List.length_append, hlen, List.length_drop]
    omega
  obtain ⟨q, hq⟩ := exists_ofBytes_iff.mpr hshort
  exact ⟨q, hq, ofBytes_eq_ok_iff.mp hq⟩

theorem ofNotes_of_parse (h : p.parse = .ok (.notes cs)) :
    ∃ q, ofNotes cs = .ok q ∧ q.bytes = notesSelector ++ p.bytes.drop 4 := by
  obtain ⟨q, hq, hbytes⟩ := exists_ofBytes_reselected (length_selectorOf _) h
  refine ⟨q, ?_, hbytes⟩
  rw [ofNotes, ← (parse_eq_notes_iff.mp h).2]
  exact hq

theorem ofPrepayment_of_parse (h : p.parse = .ok (.prepayment record)) :
    ∃ q, ofPrepayment record = .ok q ∧ q.bytes = prepaymentSelector ++ p.bytes.drop 4 := by
  obtain ⟨-, hsignature, hbody⟩ := parse_eq_prepayment_iff.mp h
  obtain ⟨q, hq, hbytes⟩ := exists_ofBytes_reselected (length_selectorOf _) h
  refine ⟨q, ?_, hbytes⟩
  rw [ofPrepayment_eq hsignature, ← hbody]
  exact hq

/-- What is behind the selector is determined by what the payload says. -/
theorem drop_eq_of_parse (hp : p.parse = .ok content) (hq : q.parse = .ok content) :
    p.bytes.drop 4 = q.bytes.drop 4 := by
  rcases parse_cases hp with ⟨-, cs, rfl, hbody⟩ | ⟨-, record, rfl, -, hbody⟩
  · rw [hbody, (parse_eq_notes_iff.mp hq).2]
  · rw [hbody, (parse_eq_prepayment_iff.mp hq).2.2]

end Payload

/-- A payload that is parsed has one of the two selectors of its kind, and what it says is written
as the same bytes behind the first of them.  Payloads with one selector that say the same are the
same. -/
theorem canonical_of_parse :
    (∀ (p : MemoPayload) (cs : List EncryptedNote), p.parse = .ok (.notes cs) →
      (∃ q, ofNotes cs = .ok q ∧ q.bytes = notesSelector ++ p.bytes.drop 4) ∧
        (p.bytes.take 4 = notesSelector ∨ p.bytes.take 4 = notesShortSelector)) ∧
    (∀ (p : MemoPayload) (record : Prepayment), p.parse = .ok (.prepayment record) →
      (∃ q, ofPrepayment record = .ok q ∧ q.bytes = prepaymentSelector ++ p.bytes.drop 4) ∧
        (p.bytes.take 4 = prepaymentSelector ∨ p.bytes.take 4 = prepaymentShortSelector)) ∧
    ∀ (p q : MemoPayload) (content : MemoContent), p.bytes.take 4 = q.bytes.take 4 →
      p.parse = .ok content → q.parse = .ok content → p = q := by
  refine ⟨?_, ?_, ?_⟩
  · intro p cs h
    exact ⟨ofNotes_of_parse h, (parse_eq_notes_iff.mp h).1⟩
  · intro p record h
    exact ⟨ofPrepayment_of_parse h, (parse_eq_prepayment_iff.mp h).1⟩
  · intro p q content hselector hp hq
    ext1
    calc p.bytes = p.bytes.take 4 ++ p.bytes.drop 4 := (List.take_append_drop 4 _).symm
      _ = q.bytes.take 4 ++ q.bytes.drop 4 := by rw [hselector, drop_eq_of_parse hp hq]
      _ = q.bytes := List.take_append_drop 4 _

/-- A batch of one blank note under the older selector, and an offer under the older selector: both
are written again under the newer one, and no other payload with the older one says the same. -/
theorem canonical_of_parse_short :
    let batch : MemoPayload := ⟨notesShortSelector ++ List.replicate 81 0, by decide⟩
    let offer : MemoPayload :=
      ⟨prepaymentShortSelector ++ prepaymentBody (offerSigned 3), by
        rw [List.length_append, length_prepaymentBody]
        decide⟩
    (∃ q, ofNotes [.ofListPadded _ []] = .ok q ∧
      q.bytes = notesSelector ++ List.replicate 81 0) ∧
    (∃ q, ofPrepayment (offerSigned 3) = .ok q ∧
      q.bytes = prepaymentSelector ++ prepaymentBody (offerSigned 3)) ∧
    (∀ q : MemoPayload, q.bytes.take 4 = notesShortSelector →
      q.parse = .ok (.notes [.ofListPadded _ []]) → q = batch) ∧
    ∀ q : MemoPayload, q.bytes.take 4 = prepaymentShortSelector →
      q.parse = .ok (.prepayment (offerSigned 3)) → q = offer := by
  intro batch offer
  have hbatch : batch.parse = .ok (.notes [.ofListPadded _ []]) :=
    parse_eq_notes_iff.mpr ⟨.inr rfl, by decide⟩
  have hoffer : offer.parse = .ok (.prepayment (offerSigned 3)) :=
    parse_eq_prepayment_iff.mpr ⟨.inr rfl, by decide, rfl⟩
  obtain ⟨hnotes, hprepayment, hsame⟩ := canonical_of_parse
  exact ⟨(hnotes batch _ hbatch).1, (hprepayment offer _ hoffer).1,
    fun q hselector hq => hsame q batch _ hselector hq hbatch,
    fun q hselector hq => hsame q offer _ hselector hq hoffer⟩

end ShieldedWallet.MemoPayload
