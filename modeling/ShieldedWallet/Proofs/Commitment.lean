/-
What the hash of a note commits to.

Both stages of the hash are taken over elements of the field.  The owner, the
salt and the token are such elements or narrower, and stay as they are; the
three amounts are wider, and only their residues are hashed.

* `Note.Congruent` — notes that differ in amounts only, by multiples of the order;
* `Note.Collides` — notes whose hashes agree at a stage where what is hashed
  does not;
* `Note.preimage_eq_iff` — what is hashed of two notes agrees at both stages
  exactly if they are congruent;
* `Note.congruent_of_hash_eq` — notes that share a hash are congruent, unless
  they collide;
* `EncryptedNote.congruent_of_decryptExpected?` — so is what a reader finds to
  the note whose hash was expected, and it is that note if no amount of either
  reaches the order;
* `Note.decryptExpected?_of_congruent` — every note that is congruent to the one
  expected, and that can be encrypted, can be made the one found.

Design notes: nothing is asked of the hash.  A collision is a conclusion, never
excluded by a hypothesis on the hash.
-/
import ShieldedWallet.Proofs.Delivery

namespace ShieldedWallet

theorem Amount.toFelt_eq_iff {a b : Amount} :
    a.toFelt = b.toFelt ↔ a.toNat ≡ b.toNat [MOD fieldOrder] := by
  constructor
  · intro h
    exact congrArg Fin.val h
  · intro h
    exact Fin.ext h

/-- No amount of the asset reaches the order of the field. -/
structure Asset.InField (a : Asset) : Prop where
  eth : a.eth.toNat < fieldOrder
  amount : a.amount.toNat < fieldOrder
  tokenId : a.tokenId.toNat < fieldOrder

namespace Note

variable {m n : Note}

/-- The notes differ at most in their amounts, and there by multiples of the order of the field. -/
structure Congruent (m n : Note) : Prop where
  owner : m.owner = n.owner
  salt : m.salt = n.salt
  token : m.asset.token = n.asset.token
  eth : m.asset.eth.toNat ≡ n.asset.eth.toNat [MOD fieldOrder]
  amount : m.asset.amount.toNat ≡ n.asset.amount.toNat [MOD fieldOrder]
  tokenId : m.asset.tokenId.toNat ≡ n.asset.tokenId.toNat [MOD fieldOrder]

/-- The hashes agree at one of the stages, over inputs that do not. -/
def Collides (m n : Note) : Prop :=
  (m.innerInputs ≠ n.innerInputs ∧ poseidon m.innerInputs = poseidon n.innerInputs) ∨
    (m.outerInputs (poseidon m.innerInputs) ≠ n.outerInputs (poseidon n.innerInputs) ∧
      m.hash = n.hash)

theorem innerInputs_eq_iff :
    m.innerInputs = n.innerInputs ↔
      m.asset.eth.toNat ≡ n.asset.eth.toNat [MOD fieldOrder] ∧ m.owner = n.owner ∧
        m.salt = n.salt := by
  obtain ⟨⟨spendingKey, x, y⟩, salt, asset⟩ := m
  obtain ⟨⟨spendingKey', x', y'⟩, salt', asset'⟩ := n
  simp only [innerInputs, List.cons.injEq, and_true, Amount.toFelt_eq_iff,
    ShieldedAddress.mk.injEq, Point.mk.injEq]
  constructor
  · rintro ⟨heth, hkey, hsalt, hx, hy⟩
    exact ⟨heth, ⟨hkey, hx, hy⟩, hsalt⟩
  · rintro ⟨heth, ⟨hkey, hx, hy⟩, hsalt⟩
    exact ⟨heth, hkey, hsalt, hx, hy⟩

theorem outerInputs_eq_iff {inner inner' : Felt} :
    m.outerInputs inner = n.outerInputs inner' ↔
      inner = inner' ∧ m.asset.token = n.asset.token ∧
        m.asset.amount.toNat ≡ n.asset.amount.toNat [MOD fieldOrder] ∧
          m.asset.tokenId.toNat ≡ n.asset.tokenId.toNat [MOD fieldOrder] := by
  have htoken : m.asset.token.toFelt = n.asset.token.toFelt ↔ m.asset.token = n.asset.token :=
    ⟨LedgerAddress.toFelt_inj, congrArg LedgerAddress.toFelt⟩
  simp only [outerInputs, List.cons.injEq, and_true, Amount.toFelt_eq_iff, htoken]

theorem congruent_iff (m n : Note) :
    m.Congruent n ↔ m.innerInputs = n.innerInputs ∧
      m.outerInputs (poseidon m.innerInputs) = n.outerInputs (poseidon n.innerInputs) := by
  rw [innerInputs_eq_iff, outerInputs_eq_iff]
  constructor
  · intro h
    have hinner : m.innerInputs = n.innerInputs := innerInputs_eq_iff.mpr ⟨h.eth, h.owner, h.salt⟩
    exact ⟨⟨h.eth, h.owner, h.salt⟩, congrArg poseidon hinner, h.token, h.amount, h.tokenId⟩
  · rintro ⟨⟨heth, howner, hsalt⟩, -, htoken, hamount, htokenId⟩
    exact ⟨howner, hsalt, htoken, heth, hamount, htokenId⟩

namespace Congruent

theorem hash_eq (h : m.Congruent n) : m.hash = n.hash :=
  congrArg poseidon ((congruent_iff m n).mp h).2

theorem not_collides (h : m.Congruent n) : ¬ m.Collides n := by
  obtain ⟨hinner, houter⟩ := (congruent_iff m n).mp h
  rintro (⟨hne, -⟩ | ⟨hne, -⟩)
  · exact hne hinner
  · exact hne houter

theorem eq_of_inField (h : m.Congruent n) (hm : m.asset.InField) (hn : n.asset.InField) :
    m = n := by
  have heth := Nat.ModEq.eq_of_lt_of_lt h.eth hm.eth hn.eth
  have hamount := Nat.ModEq.eq_of_lt_of_lt h.amount hm.amount hn.amount
  have htokenId := Nat.ModEq.eq_of_lt_of_lt h.tokenId hm.tokenId hn.tokenId
  have hasset : m.asset = n.asset :=
    Asset.ext (Amount.ext heth) h.token (Amount.ext hamount) (Amount.ext htokenId)
  exact Note.ext h.owner h.salt hasset

end Congruent

/-! ### What is hashed in the end -/

/-- What the hash is taken over in the end: the inputs of the first stage, in the place of their
hash, and the token position. -/
def preimage (n : Note) : List (Felt ⊕ List Felt) :=
  [.inr n.innerInputs, .inl n.asset.token.toFelt, .inl n.asset.amount.toFelt,
    .inl n.asset.tokenId.toFelt]

theorem hash_eq_preimage (n : Note) :
    n.hash = poseidon (n.preimage.map (Sum.elim id poseidon)) := rfl

theorem preimage_eq_iff_congruent : m.preimage = n.preimage ↔ m.Congruent n := by
  have houter : m.preimage = n.preimage ↔
      m.innerInputs = n.innerInputs ∧ m.outerInputs 0 = n.outerInputs 0 := by
    simp only [preimage, outerInputs, List.cons.injEq, Sum.inr.injEq, Sum.inl.injEq, true_and]
  rw [houter, congruent_iff, outerInputs_eq_iff, outerInputs_eq_iff, and_iff_right rfl]
  refine and_congr_right fun hinner => ?_
  rw [and_iff_right (congrArg poseidon hinner)]

/-- What is hashed agrees, at both stages, exactly if the keys, the salt and the token do and the
amounts are congruent modulo the order of the field.  So it determines a note whose amounts are all
below the order, among the notes of this kind. -/
theorem preimage_eq_iff (m n : Note) :
    (m.preimage = n.preimage ↔
      m.owner.spendingKey = n.owner.spendingKey ∧ m.owner.viewingKey = n.owner.viewingKey ∧
        m.salt = n.salt ∧ m.asset.token = n.asset.token ∧
          m.asset.eth.toNat ≡ n.asset.eth.toNat [MOD fieldOrder] ∧
            m.asset.amount.toNat ≡ n.asset.amount.toNat [MOD fieldOrder] ∧
              m.asset.tokenId.toNat ≡ n.asset.tokenId.toNat [MOD fieldOrder]) ∧
      (m.asset.InField → n.asset.InField → (m.preimage = n.preimage ↔ m = n)) := by
  refine ⟨?_, fun hm hn => ⟨fun h => ?_, congrArg preimage⟩⟩
  · rw [preimage_eq_iff_congruent]
    constructor
    · intro h
      exact ⟨congrArg _ h.owner, congrArg _ h.owner, h.salt, h.token, h.eth, h.amount, h.tokenId⟩
    · rintro ⟨hspending, hviewing, hsalt, htoken, heth, hamount, htokenId⟩
      exact ⟨ShieldedAddress.ext hspending hviewing, hsalt, htoken, heth, hamount, htokenId⟩
  · exact (preimage_eq_iff_congruent.mp h).eq_of_inField hm hn

/-- Notes of thirty and of forty are told apart by what is hashed of them, and a note of thirty and
the order is not told from one of thirty. -/
theorem preimage_eq_iff_wrapped :
    (Asset.ether 30).InField ∧ (Asset.ether 40).InField ∧
      preimage ⟨.null, 12, .ether 30⟩ ≠ preimage ⟨.null, 12, .ether 40⟩ ∧
        preimage ⟨.null, 12, .ether ⟨fieldOrder + 30, by decide +kernel⟩⟩ =
          preimage ⟨.null, 12, .ether 30⟩ := by
  have hthirty : (Asset.ether 30).InField := ⟨by decide +kernel, by decide +kernel,
    by decide +kernel⟩
  have hforty : (Asset.ether 40).InField := ⟨by decide +kernel, by decide +kernel,
    by decide +kernel⟩
  refine ⟨hthirty, hforty, fun h => ?_, ?_⟩
  · have heq := ((preimage_eq_iff _ _).2 hthirty hforty).mp h
    exact absurd heq (by decide)
  · exact (preimage_eq_iff _ _).1.mpr ⟨rfl, rfl, rfl, rfl, Nat.add_modEq_left, rfl, rfl⟩

/-! ### What the hash tells -/

theorem congruent_of_hash_eq (h : m.hash = n.hash) (hcollides : ¬ m.Collides n) :
    m.Congruent n := by
  have houter : m.outerInputs (poseidon m.innerInputs) = n.outerInputs (poseidon n.innerInputs) := by
    by_contra hne
    exact hcollides (.inr ⟨hne, h⟩)
  have hstage : poseidon m.innerInputs = poseidon n.innerInputs := (outerInputs_eq_iff.mp houter).1
  have hinner : m.innerInputs = n.innerInputs := by
    by_contra hne
    exact hcollides (.inl ⟨hne, hstage⟩)
  exact (congruent_iff m n).mpr ⟨hinner, houter⟩

end Note

/-! ### What a reader finds -/

variable {m n : Note} {c : EncryptedNote} {viewer : Viewer} {tokens tokens' : List LedgerAddress}
  {ephemeral : Scalar}

theorem EncryptedNote.hash_mem_of_decryptExpected? {expected : List Felt}
    (h : c.decryptExpected? viewer tokens expected = some m) : m.hash ∈ expected := by
  unfold decryptExpected? at h
  split at h
  · cases h
  · split at h
    · rename_i hmem
      obtain rfl := Option.some.inj h
      exact hmem
    · cases h

/-- A note that is congruent to the one expected is found in its place, if it can be encrypted. -/
theorem Note.decryptExpected?_of_congruent (hcongruent : m.Congruent n)
    (howner : n.owner = viewer.address) (hgoes : tokens <+: tokens')
    (h : m.encrypt tokens ephemeral = .ok c) :
    c.decryptExpected? viewer tokens' [n.hash] = some m := by
  have hmem : m.hash ∈ [n.hash] := List.mem_singleton.mpr hcongruent.hash_eq
  exact decryptExpected?_of_encrypt hgoes (hcongruent.owner.trans howner) h hmem

/-- What is found, whatever the 81 bytes are, is congruent to the note whose hash was expected, and
is that note if no amount of either reaches the order, unless the two collide. -/
theorem EncryptedNote.congruent_of_decryptExpected?
    (h : c.decryptExpected? viewer tokens [n.hash] = some m) (hcollides : ¬ m.Collides n) :
    m.Congruent n ∧ (n.asset.InField → m.asset.InField → m = n) := by
  have hhash : m.hash = n.hash := List.mem_singleton.mp (hash_mem_of_decryptExpected? h)
  have hcongruent := Note.congruent_of_hash_eq hhash hcollides
  exact ⟨hcongruent, fun hn hm => hcongruent.eq_of_inField hm hn⟩

namespace Desk

/-- A note of ether that belongs to the desk's account. -/
def ownNote (eth : Amount) : Note := ⟨ownDesk.account.address, 12, .ether eth⟩

/-- Thirty, and the order of the field beside it. -/
def wideEther : Amount := ⟨fieldOrder + 30, by decide +kernel⟩

theorem ownNote_congruent : (ownNote wideEther).Congruent (ownNote 30) where
  owner := rfl
  salt := rfl
  token := rfl
  eth := Nat.add_modEq_left
  amount := rfl
  tokenId := rfl

theorem exists_encrypt_ownNote (eth : Amount) : ∃ c, (ownNote eth).encrypt [] 3 = .ok c := by
  have hsalt : (12 : Felt).val < 2 ^ 128 := by decide
  have hplaintext : (ownNote eth).plaintext? [] = .ok _ :=
    Note.plaintext?_eq_ok_iff.mpr ⟨hsalt, 0, eth, rfl, rfl⟩
  exact Note.exists_encrypt hplaintext 3

theorem congruent_of_decryptExpected?_ownNote :
    ∃ c : EncryptedNote,
      c.decryptExpected? ownDesk.account.viewer [] [(ownNote 30).hash] = some (ownNote wideEther) ∧
        ¬ (ownNote wideEther).Collides (ownNote 30) ∧
          (ownNote wideEther).Congruent (ownNote 30) := by
  obtain ⟨c, hencrypt⟩ := exists_encrypt_ownNote wideEther
  have hfound : c.decryptExpected? ownDesk.account.viewer [] [(ownNote 30).hash] =
      some (ownNote wideEther) :=
    Note.decryptExpected?_of_congruent ownNote_congruent rfl List.prefix_rfl hencrypt
  have hcollides := ownNote_congruent.not_collides
  exact ⟨c, hfound, hcollides, (EncryptedNote.congruent_of_decryptExpected? hfound hcollides).1⟩

/-- A note of thirty and the order is found where a note of thirty was expected, without any
collision. -/
theorem decryptExpected?_finds_wide :
    ∃ c, (ownNote wideEther).encrypt [] 3 = .ok c ∧
      (ownNote 30).owner = ownDesk.account.viewer.address ∧ (ownNote 30).asset.InField ∧
        c.decryptExpected? ownDesk.account.viewer [] [(ownNote 30).hash] =
            some (ownNote wideEther) ∧
          ¬ (ownNote wideEther).Collides (ownNote 30) ∧ ownNote wideEther ≠ ownNote 30 := by
  obtain ⟨c, hencrypt⟩ := exists_encrypt_ownNote wideEther
  have hinField : (ownNote 30).asset.InField := ⟨by decide +kernel, by decide +kernel,
    by decide +kernel⟩
  have hne : ownNote wideEther ≠ ownNote 30 := by
    intro h
    have heth : fieldOrder + 30 = 30 := congrArg (fun n => n.asset.eth.toNat) h
    exact absurd heth (by decide +kernel)
  exact ⟨c, hencrypt, rfl, hinField,
    Note.decryptExpected?_of_congruent ownNote_congruent rfl List.prefix_rfl hencrypt,
    ownNote_congruent.not_collides, hne⟩

end Desk

end ShieldedWallet
