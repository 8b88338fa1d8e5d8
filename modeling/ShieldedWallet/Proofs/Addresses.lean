/-
Shielded addresses, read from bytes and from text.

Bytes are an address if they pass four checks, and the first that fails is
reported.  What passes them is the address's own bytes; an address whose viewing
key is the neutral point has one more payload, since the topmost bit of that
point chooses nothing and the checksum is taken of the bytes as they are.

* `ShieldedAddress.ofBytes?_eq_ok_iff`, `ShieldedAddress.ofBytes?_eq_error_iff` —
  the four checks, and the first that fails;
* `ShieldedAddress.ofBytes?_eq_ok_iff_spelling` — the payloads of an address;
* `ShieldedAddress.ofText?_eq_ok_iff` — its texts;
* `ShieldedAddress.ofBytes?_spec` — addresses in the subgroup are read back, and
  all that the reader refuses;
* `ShieldedAddress.ofBytes?_spellings` — two payloads of one address are those of
  an address without a viewing key.
-/
import ShieldedWallet.Address.Shielded
import ShieldedWallet.Proofs.Base58
import ShieldedWallet.Proofs.Curve.Spelling

namespace ShieldedWallet

theorem Felt.toBytesLE_eq_iff {a : Felt} {bs : Bytes} (hlen : bs.length = 32) :
    Bytes.toNatLE bs = a.val ↔ bs = a.toBytesLE.toList := by
  have hwritten : Bytes.toNatLE a.toBytesLE.toList = a.val := by
    rw [toBytesLE, FixedBytes.ofNatLE, Bytes.toNatLE_ofNatLE]
    exact Nat.mod_eq_of_lt (Nat.lt_trans a.isLt fieldOrder_lt_bytes)
  rw [← hwritten]
  constructor
  · exact Bytes.toNatLE_inj (hlen.trans (FixedBytes.length_eq _).symm)
  · rintro rfl
    rfl

namespace ShieldedAddress

variable {bytes : Bytes} {a : ShieldedAddress} {e : AddressError}

/-! ### The checks -/

/-- There are 68 bytes, and the last four are the checksum of the others. -/
def Guarded (bytes : Bytes) : Prop :=
  bytes.length = 68 ∧ bytes.drop 64 = (keccak256 (bytes.take 64)).toList.take 4

/-- The number of the spending key. -/
def spendingNumber (bytes : Bytes) : Nat := Bytes.toNatLE (bytes.take 32)

/-- The bytes of the viewing key. -/
def viewingBytes (bytes : Bytes) : FixedBytes 32 := .ofListPadded 32 (bytes.drop 32)

theorem ofBytes?_of_length (h : bytes.length ≠ 68) :
    ofBytes? bytes = .error (.length 68 bytes.length) :=
  if_pos h

theorem ofBytes?_of_not_guarded (hlen : bytes.length = 68) (h : ¬ Guarded bytes) :
    ofBytes? bytes = .error .checksum :=
  (if_neg (not_not_intro hlen)).trans (if_pos fun hchecksum => h ⟨hlen, hchecksum.symm⟩)

theorem ofBytes?_of_guarded (h : Guarded bytes) :
    ofBytes? bytes =
      match Felt.ofResidue? (spendingNumber bytes) with
      | none => .error .spendingKey
      | some spendingKey =>
        match Point.decompress? (viewingBytes bytes) with
        | none => .error .viewingKey
        | some viewingKey => .ok ⟨spendingKey, viewingKey⟩ := by
  obtain ⟨hlen, hchecksum⟩ := h
  have hspending : Felt.ofBytesLE? (.ofListPadded 32 bytes) =
      Felt.ofResidue? (spendingNumber bytes) := by
    rw [Felt.ofBytesLE?_eq, FixedBytes.toNatLE, FixedBytes.toList_ofListPadded_of_le (by omega),
      spendingNumber]
  refine (if_neg (not_not_intro hlen)).trans ((if_neg (not_not_intro hchecksum.symm)).trans ?_)
  rw [hspending]
  rfl

theorem guarded_of_ofBytes? (h : ofBytes? bytes = .ok a) : Guarded bytes := by
  by_contra hguarded
  by_cases hlen : bytes.length = 68
  · rw [ofBytes?_of_not_guarded hlen hguarded] at h
    cases h
  · rw [ofBytes?_of_length hlen] at h
    cases h

theorem ofBytes?_eq_ok_iff :
    ofBytes? bytes = .ok a ↔
      Guarded bytes ∧ spendingNumber bytes = a.spendingKey.val ∧
        Point.decompress? (viewingBytes bytes) = some a.viewingKey := by
  constructor
  · intro h
    have hguarded := guarded_of_ofBytes? h
    rw [ofBytes?_of_guarded hguarded] at h
    split at h
    case h_1 => cases h
    case h_2 spendingKey hspending =>
      split at h
      case h_1 => cases h
      case h_2 viewingKey hviewing =>
        cases h
        exact ⟨hguarded, Felt.ofResidue?_eq_some_iff.mp hspending, hviewing⟩
  · rintro ⟨hguarded, hspending, hviewing⟩
    rw [ofBytes?_of_guarded hguarded, Felt.ofResidue?_eq_some_iff.mpr hspending, hviewing]

/-- The error is that of the first check that fails. -/
theorem ofBytes?_eq_error_iff :
    ofBytes? bytes = .error e ↔
      (bytes.length ≠ 68 ∧ e = .length 68 bytes.length) ∨
      (bytes.length = 68 ∧ ¬ Guarded bytes ∧ e = .checksum) ∨
      (Guarded bytes ∧ fieldOrder ≤ spendingNumber bytes ∧ e = .spendingKey) ∨
      (Guarded bytes ∧ spendingNumber bytes < fieldOrder ∧
        Point.decompress? (viewingBytes bytes) = none ∧ e = .viewingKey) := by
  by_cases hlen : bytes.length = 68
  · by_cases hguarded : Guarded bytes
    · rw [ofBytes?_of_guarded hguarded]
      cases hspending : Felt.ofResidue? (spendingNumber bytes) with
      | none =>
        have hle := Felt.ofResidue?_eq_none_iff.mp hspending
        simp [hlen, hguarded, hle, Nat.not_lt.mpr hle, eq_comm]
      | some spendingKey =>
        have hlt : spendingNumber bytes < fieldOrder :=
          Felt.ofResidue?_eq_some_iff.mp hspending ▸ spendingKey.isLt
        cases hviewing : Point.decompress? (viewingBytes bytes) with
        | none => simp [hlen, hguarded, hlt, Nat.not_le.mpr hlt, eq_comm]
        | some viewingKey => simp [hlen, hguarded, Nat.not_le.mpr hlt]
    · rw [ofBytes?_of_not_guarded hlen hguarded]
      simp [hlen, hguarded, eq_comm]
  · have hguarded : ¬ Guarded bytes := fun h => hlen h.1
    rw [ofBytes?_of_length hlen]
    simp [hlen, hguarded, eq_comm]

/-! ### Payloads -/

/-- Keys followed by their checksum. -/
def withChecksum (keys : Bytes) : Bytes := keys ++ checksum keys

/-- The payload of an address with the given bytes for the viewing key. -/
def payload (a : ShieldedAddress) (viewing : FixedBytes 32) : Bytes :=
  withChecksum (a.spendingKey.toBytesLE.toList ++ viewing.toList)

theorem toBytes_eq_payload (a : ShieldedAddress) : a.toBytes = a.payload a.viewingKey.compress :=
  rfl

section Payload

variable (a) (viewing : FixedBytes 32)

theorem take_payload :
    (a.payload viewing).take 64 = a.spendingKey.toBytesLE.toList ++ viewing.toList :=
  List.take_left' (by simp)

theorem guarded_payload : Guarded (a.payload viewing) := by
  refine ⟨by simp [payload, withChecksum, checksum], ?_⟩
  rw [take_payload, payload, withChecksum, List.drop_left' (by simp), checksum]

theorem spendingNumber_payload : spendingNumber (a.payload viewing) = a.spendingKey.val := by
  rw [spendingNumber, payload, withChecksum, List.append_assoc, List.take_left' (by simp)]
  exact (Felt.toBytesLE_eq_iff (FixedBytes.length_eq _)).mpr rfl

theorem viewingBytes_payload : viewingBytes (a.payload viewing) = viewing := by
  rw [viewingBytes, payload, withChecksum, List.append_assoc, List.drop_left' (by simp),
    FixedBytes.ofListPadded_append]

end Payload

/-- Bytes that pass the checks are the payload of the address for the viewing key's bytes. -/
theorem eq_payload (hguarded : Guarded bytes) (hspending : spendingNumber bytes = a.spendingKey.val) :
    bytes = a.payload (viewingBytes bytes) := by
  obtain ⟨hlen, hchecksum⟩ := hguarded
  have hfront : bytes.take 32 = a.spendingKey.toBytesLE.toList :=
    (Felt.toBytesLE_eq_iff (by rw [List.length_take]; omega)).mp hspending
  have hmiddle : (viewingBytes bytes).toList = (bytes.drop 32).take 32 :=
    FixedBytes.toList_ofListPadded_of_le (by rw [List.length_drop]; omega)
  have hkeys : bytes.take 64 = a.spendingKey.toBytesLE.toList ++ (viewingBytes bytes).toList := by
    rw [← hfront, hmiddle, ← List.take_add]
  -- the checksum behind the keys is the one that is written there
  calc bytes = bytes.take 64 ++ bytes.drop 64 := (List.take_append_drop 64 bytes).symm
    _ = withChecksum (bytes.take 64) := by rw [withChecksum, hchecksum, checksum]
    _ = a.payload (viewingBytes bytes) := by rw [hkeys, payload]

theorem ofBytes?_eq_ok_iff_payload :
    ofBytes? bytes = .ok a ↔
      ∃ viewing, bytes = a.payload viewing ∧ Point.decompress? viewing = some a.viewingKey := by
  rw [ofBytes?_eq_ok_iff]
  constructor
  · rintro ⟨hguarded, hspending, hviewing⟩
    exact ⟨_, eq_payload hguarded hspending, hviewing⟩
  · rintro ⟨viewing, rfl, hviewing⟩
    refine ⟨guarded_payload a viewing, spendingNumber_payload a viewing, ?_⟩
    rw [viewingBytes_payload, hviewing]

/-- The other payload of an address whose viewing key is the neutral point: the topmost bit of that
key is set. -/
def twin (a : ShieldedAddress) : Bytes := a.payload Point.identityTwin

theorem twin_ne_toBytes (h : a.viewingKey = .identity) : a.twin ≠ a.toBytes := by
  intro heq
  have hviewing := congrArg viewingBytes heq
  rw [twin, toBytes_eq_payload, viewingBytes_payload, viewingBytes_payload, h] at hviewing
  exact Point.identityTwin_ne hviewing

/-- The payloads of an address: its bytes, and for the neutral viewing key those with the topmost
bit set. -/
theorem ofBytes?_eq_ok_iff_spelling :
    ofBytes? bytes = .ok a ↔
      a.viewingKey.OnCurve ∧ a.viewingKey.InSubgroup ∧
        (bytes = a.toBytes ∨ a.viewingKey = .identity ∧ bytes = a.twin) := by
  rw [ofBytes?_eq_ok_iff_payload]
  constructor
  · rintro ⟨viewing, rfl, hviewing⟩
    obtain ⟨hcurve, hsubgroup, hspelling⟩ := Point.decompress?_eq_some_iff.mp hviewing
    refine ⟨hcurve, hsubgroup, ?_⟩
    rcases hspelling with rfl | ⟨hneutral, rfl⟩
    · exact .inl rfl
    · exact .inr ⟨hneutral, rfl⟩
  · rintro ⟨hcurve, hsubgroup, hbytes⟩
    rcases hbytes with rfl | ⟨hneutral, rfl⟩
    · exact ⟨_, toBytes_eq_payload a,
        Point.decompress?_eq_some_iff.mpr ⟨hcurve, hsubgroup, .inl rfl⟩⟩
    · exact ⟨_, rfl, Point.decompress?_eq_some_iff.mpr ⟨hcurve, hsubgroup, .inr ⟨hneutral, rfl⟩⟩⟩

theorem ofBytes?_twin (h : a.viewingKey = .identity) : ofBytes? a.twin = .ok a := by
  refine ofBytes?_eq_ok_iff_spelling.mpr ⟨?_, ?_, .inr ⟨h, rfl⟩⟩
  · rw [h]
    exact Point.identity_onCurve
  · rw [h]
    exact Point.identity_inSubgroup

/-! ### Texts -/

theorem ofText?_eq_ok_iff {text : String} :
    ofText? text = .ok a ↔ ∃ bytes, text = Base58.encode bytes ∧ ofBytes? bytes = .ok a := by
  rw [ofText?]
  constructor
  · intro h
    split at h
    case h_1 => cases h
    case h_2 bytes hbytes => exact ⟨bytes, Base58.decode?_eq_ok_iff.mp hbytes, h⟩
  · rintro ⟨bytes, rfl, h⟩
    rw [Base58.decode?_eq_ok_iff.mpr rfl]
    exact h

theorem ofText?_encode : ofText? (Base58.encode bytes) = ofBytes? bytes := by
  rw [ofText?, Base58.decode?_eq_ok_iff.mpr rfl]

/-! ### Reading what was written -/

/-- The bytes of the viewing key are read as a point of the subgroup. -/
def HoldsPoint (bytes : Bytes) : Prop :=
  ∃ p : Point, p.OnCurve ∧ p.InSubgroup ∧ Point.decompress? (viewingBytes bytes) = some p

theorem holdsPoint_iff :
    HoldsPoint bytes ↔ ∃ p, Point.decompress? (viewingBytes bytes) = some p := by
  refine exists_congr fun p => ⟨fun h => h.2.2, fun h => ?_⟩
  obtain ⟨hcurve, hsubgroup, -⟩ := Point.decompress?_eq_some_iff.mp h
  exact ⟨hcurve, hsubgroup, h⟩

theorem not_holdsPoint_iff :
    ¬ HoldsPoint bytes ↔ Point.decompress? (viewingBytes bytes) = none := by
  rw [holdsPoint_iff, ← Option.isSome_iff_exists, Option.not_isSome_iff_eq_none]

theorem exists_ofBytes?_iff :
    (∃ a, ofBytes? bytes = .ok a) ↔
      Guarded bytes ∧ spendingNumber bytes < fieldOrder ∧ HoldsPoint bytes := by
  simp only [ofBytes?_eq_ok_iff]
  constructor
  · rintro ⟨a, hguarded, hspending, hviewing⟩
    exact ⟨hguarded, hspending ▸ a.spendingKey.isLt, holdsPoint_iff.mpr ⟨_, hviewing⟩⟩
  · rintro ⟨hguarded, hlt, p, -, -, hviewing⟩
    exact ⟨⟨⟨_, hlt⟩, p⟩, hguarded, rfl, hviewing⟩

/-- An address whose viewing key is in the subgroup is read back, from its bytes and from its text.
Bytes are an address exactly if they pass the four checks, and else the error is that of the first
one that fails: the length, the checksum, the spending key, the viewing key. -/
theorem ofBytes?_spec :
    (∀ a : ShieldedAddress, a.viewingKey.OnCurve → a.viewingKey.InSubgroup →
      ofBytes? a.toBytes = .ok a ∧ ofText? a.toText = .ok a) ∧
    ∀ bytes : Bytes,
      ((∃ a, ofBytes? bytes = .ok a) ↔
        Guarded bytes ∧ spendingNumber bytes < fieldOrder ∧ HoldsPoint bytes) ∧
      (∀ a, ofBytes? bytes = .ok a → spendingNumber bytes = a.spendingKey.val ∧
        Point.decompress? (viewingBytes bytes) = some a.viewingKey) ∧
      ∀ e, ofBytes? bytes = .error e ↔
        (bytes.length ≠ 68 ∧ e = .length 68 bytes.length) ∨
        (bytes.length = 68 ∧ ¬ Guarded bytes ∧ e = .checksum) ∨
        (Guarded bytes ∧ fieldOrder ≤ spendingNumber bytes ∧ e = .spendingKey) ∨
        (Guarded bytes ∧ spendingNumber bytes < fieldOrder ∧ ¬ HoldsPoint bytes ∧
          e = .viewingKey) := by
  constructor
  · intro a hcurve hsubgroup
    have hread : ofBytes? a.toBytes = .ok a :=
      ofBytes?_eq_ok_iff_spelling.mpr ⟨hcurve, hsubgroup, .inl rfl⟩
    exact ⟨hread, ofText?_encode.trans hread⟩
  · intro bytes
    refine ⟨exists_ofBytes?_iff, ?_, ?_⟩
    · intro a h
      exact (ofBytes?_eq_ok_iff.mp h).2
    · intro e
      rw [not_holdsPoint_iff]
      exact ofBytes?_eq_error_iff

/-- The null address and one with the generator as its viewing key are read back. -/
theorem ofBytes?_spec_null :
    (ofBytes? null.toBytes = .ok null ∧ ofText? null.toText = .ok null) ∧
      Point.decompress? (viewingBytes null.toBytes) = some .identity ∧
        ofBytes? (toBytes ⟨5, .generator⟩) = .ok ⟨5, .generator⟩ ∧
          ofText? (toText ⟨5, .generator⟩) = .ok ⟨5, .generator⟩ := by
  obtain ⟨hback, hchecks⟩ := ofBytes?_spec
  have hnull := hback null Point.identity_onCurve Point.identity_inSubgroup
  obtain ⟨-, hkeys, -⟩ := hchecks null.toBytes
  obtain ⟨-, hviewing⟩ := hkeys null hnull.1
  exact ⟨hnull, hviewing, hback _ Point.generator_onCurve Point.generator_inSubgroup⟩

/-! ### Payloads and texts of one address -/

theorem spelling_of_ofBytes? (h : ofBytes? bytes = .ok a) :
    a.toBytes = bytes ∨ (a.viewingKey = .identity ∧ bytes = a.twin) := by
  obtain ⟨-, -, hspelling⟩ := ofBytes?_eq_ok_iff_spelling.mp h
  exact hspelling.imp_left Eq.symm

theorem spelling_of_ofText? {text : String} (h : ofText? text = .ok a) :
    a.toText = text ∨ (a.viewingKey = .identity ∧ text = Base58.encode a.twin) := by
  obtain ⟨bytes, rfl, hread⟩ := ofText?_eq_ok_iff.mp h
  rcases spelling_of_ofBytes? hread with rfl | ⟨hneutral, rfl⟩
  · exact .inl rfl
  · exact .inr ⟨hneutral, rfl⟩

/-- The payload that is read as an address is the address's own, and so is the text, unless the
viewing key is the neutral point.  Such an address has one other payload and one other text, with
the topmost bit of the viewing key set. -/
theorem ofBytes?_spellings :
    (∀ bytes a, ofBytes? bytes = .ok a →
      a.toBytes = bytes ∨ (a.viewingKey = .identity ∧ bytes = a.twin)) ∧
    (∀ text a, ofText? text = .ok a →
      a.toText = text ∨ (a.viewingKey = .identity ∧ text = Base58.encode a.twin)) ∧
    (∀ bytes bytes' a, ofBytes? bytes = .ok a → ofBytes? bytes' = .ok a → bytes ≠ bytes' →
      a.viewingKey = .identity) ∧
    (∀ text text' a, ofText? text = .ok a → ofText? text' = .ok a → text ≠ text' →
      a.viewingKey = .identity) ∧
    ∀ a : ShieldedAddress, a.viewingKey = .identity →
      ofBytes? a.twin = .ok a ∧ a.toBytes ≠ a.twin ∧
        ofText? (Base58.encode a.twin) = .ok a ∧ a.toText ≠ Base58.encode a.twin := by
  refine ⟨fun _ _ => spelling_of_ofBytes?, fun _ _ => spelling_of_ofText?, ?_, ?_, ?_⟩
  · intro bytes bytes' a h h' hne
    rcases spelling_of_ofBytes? h with rfl | ⟨hneutral, -⟩
    · exact ((spelling_of_ofBytes? h').resolve_left hne).1
    · exact hneutral
  · intro text text' a h h' hne
    rcases spelling_of_ofText? h with rfl | ⟨hneutral, -⟩
    · exact ((spelling_of_ofText? h').resolve_left hne).1
    · exact hneutral
  · intro a hneutral
    have hread := ofBytes?_twin hneutral
    have hne : a.toBytes ≠ a.twin := (twin_ne_toBytes hneutral).symm
    exact ⟨hread, hne, ofText?_encode.trans hread, fun h => hne (Base58.encode_inj.mp h)⟩

/-- The null address has two payloads, and an address with the generator as its viewing key has one
text. -/
theorem ofBytes?_spellings_null :
    (ofBytes? null.twin = .ok null ∧ null.toBytes ≠ null.twin) ∧
    (∀ bytes, ofBytes? bytes = .ok null → bytes ≠ null.twin → null.toBytes = bytes) ∧
    ∀ text, ofText? text = .ok ⟨5, .generator⟩ → text = toText ⟨5, .generator⟩ := by
  obtain ⟨hbytes, -, -, htext, hneutral⟩ := ofBytes?_spellings
  obtain ⟨hread, hne, -, -⟩ := hneutral null rfl
  refine ⟨⟨hread, hne⟩, fun bytes h hother => ?_, fun text h => ?_⟩
  · exact (hbytes bytes null h).resolve_right fun htwin => hother htwin.2
  · have hown : ofText? (toText ⟨5, .generator⟩) = .ok ⟨5, .generator⟩ :=
      ofText?_encode.trans (ofBytes?_eq_ok_iff_spelling.mpr
        ⟨Point.generator_onCurve, Point.generator_inSubgroup, .inl rfl⟩)
    by_contra hdiffer
    exact absurd (htext _ _ _ h hown hdiffer) (by decide)

/-- The second payload of the null address. -/
def nullTwin : Bytes :=
  List.replicate 32 0 ++ (1 :: List.replicate 30 0) ++ [0x80] ++ [0xd4, 0x4f, 0xc5, 0x4c]

/-- These 68 bytes are read as the null address, which is not written so; nor is their text. -/
theorem ofBytes?_nullTwin :
    ofBytes? nullTwin = .ok null ∧ null.toBytes ≠ nullTwin ∧
      ofText? (Base58.encode nullTwin) = .ok null ∧ null.toText ≠ Base58.encode nullTwin := by
  have htwin : nullTwin = null.twin := by decide +kernel
  have hread : ofBytes? nullTwin = .ok null := htwin ▸ ofBytes?_twin rfl
  have hne : null.toBytes ≠ nullTwin := htwin ▸ (twin_ne_toBytes rfl).symm
  exact ⟨hread, hne, ofText?_encode.trans hread, fun h => hne (Base58.encode_inj.mp h)⟩

end ShieldedAddress

end ShieldedWallet
