/-
Encrypted notes reach their owners.

What is encrypted for an owner is read back by the owner: the token byte stands
for one place of the sender's list, the 49 bytes are cut where they were joined,
both sides compute one secret, and the note that is read is kept because its
hash is that of an output.

* `NoteEncryption.Coded`, `coded_of_assetCode` — what a token byte and an amount
  stand for, and `assetOfCode?_of_coded`, which reads them;
* `Note.ofPlaintext?_of_plaintext?` — the 49 bytes are read back;
* `Point.scale_base_comm` — the secret is the same on both sides;
* `Note.decrypt?_of_encrypt` — the owner reads the note, with any list of tokens
  that goes on from the sender's;
* `Desk.recoverNotes_of_shield` — the owner of an output that was made the memo
  finds its note, and nothing else, in the bytes of the transaction.

Design notes: nothing is asked of the ephemeral scalar, which may even be zero.
-/
import ShieldedWallet.Proofs.Curve.Compression
import ShieldedWallet.Proofs.Signals

namespace ShieldedWallet

/-! ### The token byte -/

namespace NoteEncryption

/-- The token byte and the amount that stand for an asset.  A token is named by its first place
among those that a byte can name. -/
inductive Coded (tokens : List LedgerAddress) : Asset → UInt8 → Amount → Prop
  | ether (eth : Amount) : Coded tokens (.ether eth) 0 eth
  | fungible {index token amount} (hindex : (tokens.take maxTokens).idxOf? token = some index)
      (hamount : amount ≠ 0) :
      Coded tokens ⟨0, token, amount, 0⟩ (UInt8.ofNat (index + 1)) amount
  | single {index token tokenId} (hindex : (tokens.take maxTokens).idxOf? token = some index)
      (htokenId : tokenId ≠ 0) :
      Coded tokens ⟨0, token, 0, tokenId⟩ (UInt8.ofNat (index + 1) ||| singleFlag) tokenId

variable {tokens tokens' : List LedgerAddress} {a : Asset} {id : UInt8} {value : Amount}

theorem coded_of_assetCode (h : assetCode tokens a = .ok (id, value)) : Coded tokens a id value := by
  obtain ⟨eth, token, amount, tokenId⟩ := a
  unfold assetCode at h
  split at h
  case isTrue hether =>
    simp only [Asset.isEtherOnly, Bool.and_eq_true, decide_eq_true_eq] at hether
    obtain ⟨⟨rfl, rfl⟩, rfl⟩ := hether
    obtain ⟨rfl, rfl⟩ := Prod.mk.inj (Except.ok.inj h)
    exact .ether eth
  case isFalse =>
    split at h
    · cases h
    · rename_i heth
      have hzero : eth = 0 := Classical.not_not.mp heth
      subst hzero
      split at h
      · cases h
      · rename_i index hindex
        split at h
        case isTrue hfungible =>
          simp only [Asset.isFungible, Bool.and_eq_true, decide_eq_true_eq] at hfungible
          obtain ⟨hamount, rfl⟩ := hfungible
          obtain ⟨rfl, rfl⟩ := Prod.mk.inj (Except.ok.inj h)
          exact .fungible hindex hamount
        case isFalse =>
          split at h
          case isTrue hsingle =>
            simp only [Asset.isSingle, Bool.and_eq_true, decide_eq_true_eq] at hsingle
            obtain ⟨rfl, htokenId⟩ := hsingle
            obtain ⟨rfl, rfl⟩ := Prod.mk.inj (Except.ok.inj h)
            exact .single hindex htokenId
          case isFalse => cases h

/-- The first place of a token is below the bound, and the token still stands there when the list
goes on. -/
theorem place_of_idxOf? {token : LedgerAddress} {index : Nat} (hgoes : tokens <+: tokens')
    (h : (tokens.take maxTokens).idxOf? token = some index) :
    index < maxTokens ∧ tokens'[index]? = some token := by
  obtain ⟨hlt, htoken, -⟩ := List.idxOf?_eq_some_iff.mp h
  have htake : tokens.take maxTokens <+: tokens := List.take_prefix maxTokens tokens
  have hall : tokens.take maxTokens <+: tokens' := htake.trans hgoes
  have hmax : (tokens.take maxTokens).length ≤ maxTokens := List.length_take_le maxTokens tokens
  refine ⟨Nat.lt_of_lt_of_le hlt hmax, ?_⟩
  rw [List.prefix_iff_getElem?.mp hall index hlt, htoken]

/-- The low bits of a token byte give the place back, and the top bit is that of the kind. -/
theorem tokenByte_bits {index : Nat} (h : index < maxTokens) :
    let id := UInt8.ofNat (index + 1)
    (id ≠ 0 ∧ (id &&& 0x7f).toNat = index + 1 ∧ id &&& singleFlag = 0) ∧
      (id ||| singleFlag ≠ 0 ∧ ((id ||| singleFlag) &&& 0x7f).toNat = index + 1 ∧
        (id ||| singleFlag) &&& singleFlag ≠ 0) := by
  revert index
  decide

theorem assetOfCode?_of_coded (hgoes : tokens <+: tokens') (h : Coded tokens a id value) :
    assetOfCode? tokens' id value = some a := by
  cases h with
  | ether => rfl
  | fungible hindex hamount =>
    obtain ⟨hlt, htoken⟩ := place_of_idxOf? hgoes hindex
    obtain ⟨⟨hne, hplace, hflag⟩, -⟩ := tokenByte_bits hlt
    simp only [assetOfCode?, if_neg hne, hplace, htoken, if_pos hflag, Asset.fungible,
      if_neg hamount, Except.toOption]
  | single hindex htokenId =>
    obtain ⟨hlt, htoken⟩ := place_of_idxOf? hgoes hindex
    obtain ⟨-, hne, hplace, hflag⟩ := tokenByte_bits hlt
    simp only [assetOfCode?, if_neg hne, hplace, htoken, if_neg hflag, Asset.single,
      if_neg htokenId, Except.toOption]

end NoteEncryption

open NoteEncryption

/-! ### The 49 bytes -/

namespace Note

variable {n : Note} {tokens tokens' : List LedgerAddress} {plaintext : Bytes} {ephemeral : Scalar}
  {c : EncryptedNote}

theorem plaintext?_eq_ok_iff :
    n.plaintext? tokens = .ok plaintext ↔
      n.salt.val < 2 ^ 128 ∧ ∃ id value, assetCode tokens n.asset = .ok (id, value) ∧
        plaintext = Bytes.ofNatBE 16 n.salt.val ++ id :: value.toBytesBE.toList := by
  unfold plaintext?
  split
  case isTrue hwide =>
    refine iff_of_false (fun h => nomatch h) ?_
    rintro ⟨hsalt, -⟩
    omega
  case isFalse hsalt =>
    simp only [Except.bind_eq_ok_iff, Except.pure_eq_ok_iff, Prod.exists]
    constructor
    · rintro ⟨id, value, hcode, hbytes⟩
      exact ⟨Nat.lt_of_not_le hsalt, id, value, hcode, hbytes.symm⟩
    · rintro ⟨-, id, value, hcode, hbytes⟩
      exact ⟨id, value, hcode, hbytes.symm⟩

theorem length_plaintext? (h : n.plaintext? tokens = .ok plaintext) :
    plaintext.length = plaintextLength := by
  obtain ⟨-, id, value, -, rfl⟩ := plaintext?_eq_ok_iff.mp h
  rw [List.length_append, Bytes.length_ofNatBE, List.length_cons, FixedBytes.length_eq]
  rfl

/-- The note of an owner that 49 bytes write. -/
def ofPlaintext? (owner : ShieldedAddress) (tokens : List LedgerAddress) (plaintext : Bytes) :
    Option Note :=
  (assetOfCode? tokens (plaintext.getD 16 0)
    (.ofBytesBE (.ofListPadded 32 (plaintext.drop 17)))).map
      (⟨owner, Felt.ofNat (Bytes.toNatBE (plaintext.take 16)), ·⟩)

/-- The bytes that write a note are read back, also when the list of tokens goes on. -/
theorem ofPlaintext?_of_plaintext? (hgoes : tokens <+: tokens')
    (h : n.plaintext? tokens = .ok plaintext) :
    ofPlaintext? n.owner tokens' plaintext = some n := by
  obtain ⟨hsalt, id, value, hcode, rfl⟩ := plaintext?_eq_ok_iff.mp h
  have hasset : assetOfCode? tokens' id value = some n.asset :=
    assetOfCode?_of_coded hgoes (coded_of_assetCode hcode)
  have hlength : (Bytes.ofNatBE 16 n.salt.val).length = 16 := Bytes.length_ofNatBE 16 _
  have hnumber : Bytes.toNatBE (Bytes.ofNatBE 16 n.salt.val) = n.salt.val := by
    rw [Bytes.toNatBE_ofNatBE]
    exact Nat.mod_eq_of_lt hsalt
  have hid : (Bytes.ofNatBE 16 n.salt.val ++ id :: value.toBytesBE.toList).getD 16 0 = id := by
    rw [List.getD_eq_getElem?_getD, List.getElem?_append_right (Nat.le_of_eq hlength), hlength]
    rfl
  have hvalue : (Bytes.ofNatBE 16 n.salt.val ++ id :: value.toBytesBE.toList).drop 17 =
      value.toBytesBE.toList := by
    rw [List.drop_append, hlength, List.drop_of_length_le (by omega)]
    rfl
  have hread : Amount.ofBytesBE (.ofListPadded 32 value.toBytesBE.toList) = value := by
    have hpadded := value.toBytesBE.ofListPadded_append []
    rw [List.append_nil] at hpadded
    rw [hpadded, Amount.ofBytesBE_toBytesBE]
  rw [ofPlaintext?, hid, hvalue, hread, hasset, List.take_left' hlength, hnumber, Felt.ofNat_val]
  rfl

end Note

/-! ### The secret of both sides -/

theorem Point.scale_base_comm (s t : Scalar) : (base s).scale t = (base t).scale s := by
  rw [scale_base, scale_base, mul_comm]

theorem length_keyStream (shared ephemeral : FixedBytes 32) :
    (keyStream shared ephemeral).length = plaintextLength :=
  FixedBytes.length_eq _

namespace Note

variable {n : Note} {tokens tokens' : List LedgerAddress} {plaintext : Bytes} {ephemeral : Scalar}
  {c : EncryptedNote} {viewer : Viewer}

theorem toList_of_encrypt (h : n.encrypt tokens ephemeral = .ok c) :
    ∃ plaintext, n.plaintext? tokens = .ok plaintext ∧
      c.toList = (Point.base ephemeral).compress.toList ++ Bytes.xor plaintext
        (keyStream (n.owner.viewingKey.scale ephemeral).compress (Point.base ephemeral).compress) := by
  unfold encrypt at h
  simp only [Except.bind_eq_ok_iff, Except.pure_eq_ok_iff] at h
  obtain ⟨plaintext, hplaintext, rfl⟩ := h
  refine ⟨plaintext, hplaintext, FixedBytes.toList_ofListPadded ?_⟩
  have hlength := length_plaintext? hplaintext
  rw [List.length_append, Bytes.length_xor, hlength, length_keyStream, FixedBytes.length_eq]
  rfl

theorem exists_encrypt (h : n.plaintext? tokens = .ok plaintext) (ephemeral : Scalar) :
    ∃ c, n.encrypt tokens ephemeral = .ok c := by
  rw [encrypt, h]
  exact ⟨_, rfl⟩

/-- The reader has the 49 bytes that the sender wrote. -/
theorem plaintext?_of_encrypt (howner : n.owner = viewer.address)
    (h : n.encrypt tokens ephemeral = .ok c) :
    ∃ plaintext, n.plaintext? tokens = .ok plaintext ∧
      c.plaintext? viewer.viewingScalar = some plaintext := by
  obtain ⟨plaintext, hplaintext, hbytes⟩ := toList_of_encrypt h
  refine ⟨plaintext, hplaintext, ?_⟩
  have hpoint : c.ephemeralBytes = (Point.base ephemeral).compress := by
    rw [EncryptedNote.ephemeralBytes, hbytes, FixedBytes.ofListPadded_append]
  have hshared : (Point.base ephemeral).scale viewer.viewingScalar =
      n.owner.viewingKey.scale ephemeral := by
    rw [Point.scale_base_comm, howner]
    rfl
  have hlength : plaintext.length ≤
      (keyStream (n.owner.viewingKey.scale ephemeral).compress
        (Point.base ephemeral).compress).length := by
    rw [length_plaintext? hplaintext, length_keyStream]
  simp only [EncryptedNote.plaintext?, hpoint, Point.decompress?_compress_base, hshared, hbytes,
    List.drop_left' (FixedBytes.length_eq _), Bytes.xor_xor_cancel hlength]

end Note

/-! ### Reading -/

theorem EncryptedNote.decrypt?_eq_bind (c : EncryptedNote) (viewer : Viewer)
    (tokens : List LedgerAddress) :
    c.decrypt? viewer tokens =
      (c.plaintext? viewer.viewingScalar).bind (Note.ofPlaintext? viewer.address tokens) := by
  unfold decrypt?
  cases c.plaintext? viewer.viewingScalar with
  | none => rfl
  | some plaintext =>
    simp only [Option.bind_some, Note.ofPlaintext?]
    cases assetOfCode? tokens _ _ with
    | none => rfl
    | some asset => rfl

variable {n : Note} {tokens tokens' : List LedgerAddress} {ephemeral : Scalar} {c : EncryptedNote}
  {viewer : Viewer}

/-- The owner of an encrypted note reads it, also with a list of tokens that goes on from the
sender's. -/
theorem Note.decrypt?_of_encrypt (hgoes : tokens <+: tokens') (howner : n.owner = viewer.address)
    (h : n.encrypt tokens ephemeral = .ok c) : c.decrypt? viewer tokens' = some n := by
  obtain ⟨plaintext, hwritten, hread⟩ := plaintext?_of_encrypt howner h
  have hnote := ofPlaintext?_of_plaintext? hgoes hwritten
  rw [c.decrypt?_eq_bind, hread, Option.bind_some, ← howner, hnote]

theorem Note.decryptExpected?_of_encrypt (hgoes : tokens <+: tokens')
    (howner : n.owner = viewer.address) (h : n.encrypt tokens ephemeral = .ok c)
    {expected : List Felt} (hexpected : n.hash ∈ expected) :
    c.decryptExpected? viewer tokens' expected = some n := by
  unfold EncryptedNote.decryptExpected?
  rw [decrypt?_of_encrypt hgoes howner h]
  exact if_pos hexpected

/-- A memo of one note that the viewer can read gives this note. -/
theorem Transaction.recoverNotes_of_note {tx : Transaction} (hmemo : tx.memo = some (.note c))
    (h : c.decryptExpected? viewer tokens tx.outputHashes = some n) :
    tx.recoverNotes viewer tokens = [n] := by
  have hparse : tx.parseMemo = .ok (some (.note c)) := by
    rw [parseMemo, hmemo]
    rfl
  rw [recoverNotes, hparse]
  show [c].filterMap _ = [n]
  rw [List.filterMap_cons, h]
  rfl

namespace Desk

variable {d : Desk} {plan : Plan} {index : Nat} {tx : Transaction}

theorem hash_mem_outputHashes {o : Outflow} (ho : o ∈ plan.outflow) (proofs : List MerkleProof)
    (proof : Groth16Proof) (memo : Option Memo) :
    o.note.hash ∈ (d.transactionOf plan proofs proof memo).outputHashes := by
  have hview : OutflowView.ofOutflow o ∈ plan.outflow.map OutflowView.ofOutflow :=
    List.mem_map_of_mem ho
  exact List.mem_map.mpr ⟨_, hview, rfl⟩

/-- The owner of the output that was made the memo finds its note, and nothing else, in the bytes of
the transaction. -/
theorem recoverNotes_of_shield {o : Outflow} {reader : Account}
    (h : d.shield plan (some index) ephemeral = .ok tx) (ho : plan.outflow[index]? = some o)
    (howner : reader.address = o.note.owner) (hgoes : d.tokens <+: tokens') :
    ∃ read, Transaction.decode tx.encode = .ok read ∧
      read.recoverNotes reader.viewer tokens' = [o.note] := by
  obtain @⟨proofs, memo, keys, result, hproves, hinflow, houtflow⟩ := shield_eq_ok_iff.mp h
  have hwell := hproves.wellFormed hinflow houtflow result.proof memo
  obtain ⟨o', c, ho', hencrypt, rfl⟩ := hproves.carried
  obtain rfl : o' = o := Option.some.inj (ho'.symm.trans ho)
  have hmember : o'.note.hash ∈
      (d.transactionOf plan proofs result.proof (some (.note c))).outputHashes :=
    hash_mem_outputHashes (List.mem_of_getElem? ho) proofs result.proof _
  have hread := Note.decryptExpected?_of_encrypt hgoes howner.symm hencrypt hmember
  exact ⟨_, Transaction.decode_eq_ok_iff.mpr ⟨hwell, rfl⟩,
    Transaction.recoverNotes_of_note rfl hread⟩

/-- The withdrawal of the desk's own plan is found by its account, which knows a token more. -/
theorem recoverNotes_of_shield_ownDesk :
    ∃ tx read o, ownDesk.shield (ownDesk.account.ownPlan none) (some 1) 3 = .ok tx ∧
      (ownDesk.account.ownPlan none).outflow[1]? = some o ∧
      Transaction.decode tx.encode = .ok read ∧
      read.recoverNotes ownDesk.account.viewer [.zero] = [o.note] := by
  have hplaintext : Note.plaintext? ⟨ownDesk.account.address, 13, .ether 60⟩ [] = .ok _ :=
    Note.plaintext?_eq_ok_iff.mpr ⟨by decide, 0, 60, rfl, rfl⟩
  obtain ⟨c, hencrypt⟩ := Note.exists_encrypt hplaintext 3
  have hproves : ownDesk.Proves (ownDesk.account.ownPlan none) (some 1) 3 [⟨7, [], 4⟩] _ _ _ :=
    ⟨⟨⟨rfl, Account.views_of_mem_ownPlan⟩, ⟨_, _, rfl, hencrypt, rfl⟩, rfl⟩, rfl, rfl⟩
  have hshield := shield_of_accepts (.intro hproves (by decide) (by decide))
  have hgoes : [] <+: [LedgerAddress.zero] := List.nil_prefix
  obtain ⟨read, hdecode, hnotes⟩ := recoverNotes_of_shield hshield rfl rfl hgoes
  exact ⟨_, read, _, hshield, rfl, hdecode, hnotes⟩

end Desk

end ShieldedWallet
