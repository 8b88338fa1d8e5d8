/-
Which notes can be encrypted.

The 49 bytes have room for a salt of 128 bits, one byte that names a token and
one amount.  A note fits if its salt does, and if it holds ether alone or one
position of a token that the byte can name.

* `Note.Encryptable` — the notes that fit, for a list of tokens;
* `NoteEncryption.assetCode_eq_ok_iff` — what is written for an asset is what
  stands for it, so writing fails only where nothing does;
* `Note.encrypt_iff` — the notes that fit are encrypted under every ephemeral
  scalar, and no others, and their owners read them back.

Design notes: the place of a token in the list is the first one, so a list may
name a token twice, and the zero address may be a token like any other.
-/
import ShieldedWallet.Proofs.Delivery

namespace ShieldedWallet

namespace NoteEncryption

variable {tokens : List LedgerAddress} {a : Asset} {id : UInt8} {value : Amount}

theorem assetCode_of_coded (h : Coded tokens a id value) : assetCode tokens a = .ok (id, value) := by
  cases h with
  | ether => rfl
  | fungible hindex hamount =>
    simp [assetCode, hindex, Asset.isEtherOnly, Asset.isFungible, hamount]
  | single hindex htokenId =>
    simp [assetCode, hindex, Asset.isEtherOnly, Asset.isFungible, Asset.isSingle, htokenId]

/-- What is written for an asset is what stands for it. -/
theorem assetCode_eq_ok_iff : assetCode tokens a = .ok (id, value) ↔ Coded tokens a id value :=
  ⟨coded_of_assetCode, assetCode_of_coded⟩

theorem exists_idxOf?_iff {token : LedgerAddress} :
    (∃ index, (tokens.take maxTokens).idxOf? token = some index) ↔
      token ∈ tokens.take maxTokens := by
  rw [← Option.isSome_iff_exists, List.isSome_idxOf?]

/-- Something stands for an asset if it is ether alone, or else no ether and one position of a token
that can be named. -/
theorem exists_coded_iff :
    (∃ id value, Coded tokens a id value) ↔
      (a.token = .zero ∧ a.amount = 0 ∧ a.tokenId = 0) ∨
        (a.eth = 0 ∧ a.token ∈ tokens.take maxTokens ∧ (a.amount = 0 ↔ a.tokenId ≠ 0)) := by
  constructor
  · rintro ⟨id, value, h⟩
    cases h with
    | ether => exact .inl ⟨rfl, rfl, rfl⟩
    | fungible hindex hamount =>
      exact .inr ⟨rfl, exists_idxOf?_iff.mp ⟨_, hindex⟩, by simp [hamount]⟩
    | single hindex htokenId =>
      exact .inr ⟨rfl, exists_idxOf?_iff.mp ⟨_, hindex⟩, by simp [htokenId]⟩
  · obtain ⟨eth, token, amount, tokenId⟩ := a
    rintro (⟨rfl, rfl, rfl⟩ | ⟨rfl, hmem, hone⟩)
    · exact ⟨0, eth, .ether eth⟩
    · obtain ⟨index, hindex⟩ := exists_idxOf?_iff.mpr hmem
      by_cases hamount : amount = 0
      · subst hamount
        exact ⟨_, _, .single hindex (hone.mp rfl)⟩
      · have htokenId : tokenId = 0 := Classical.not_not.mp fun hne => hamount (hone.mpr hne)
        subst htokenId
        exact ⟨_, _, .fungible hindex hamount⟩

end NoteEncryption

open NoteEncryption

namespace Note

variable {n : Note} {tokens : List LedgerAddress}

/-- The salt has at most 128 bits, and the asset is ether alone, or it is no ether and exactly one
position of one of the first 127 tokens. -/
def Encryptable (n : Note) (tokens : List LedgerAddress) : Prop :=
  n.salt.val < 2 ^ 128 ∧
    ((n.asset.token = .zero ∧ n.asset.amount = 0 ∧ n.asset.tokenId = 0) ∨
      (n.asset.eth = 0 ∧ n.asset.token ∈ tokens.take 127 ∧
        (n.asset.amount = 0 ↔ n.asset.tokenId ≠ 0)))

theorem exists_plaintext?_iff :
    (∃ plaintext, n.plaintext? tokens = .ok plaintext) ↔ n.Encryptable tokens := by
  refine Iff.trans ?_ (and_congr_right fun _ => exists_coded_iff)
  simp only [plaintext?_eq_ok_iff, assetCode_eq_ok_iff]
  constructor
  · rintro ⟨_, hsalt, id, value, hcoded, -⟩
    exact ⟨hsalt, id, value, hcoded⟩
  · rintro ⟨hsalt, id, value, hcoded⟩
    exact ⟨_, hsalt, id, value, hcoded, rfl⟩

/-- The notes that fit are encrypted, whatever the ephemeral scalar, and no others; and whoever has
the owner's address reads the note back, with any list of tokens that goes on from the sender's. -/
theorem encrypt_iff (n : Note) (tokens : List LedgerAddress) (ephemeral : Scalar) :
    ((∃ c, n.encrypt tokens ephemeral = .ok c) ↔ n.Encryptable tokens) ∧
      ∀ c, n.encrypt tokens ephemeral = .ok c → ∀ (viewer : Viewer) (tokens' : List LedgerAddress),
        viewer.address = n.owner → tokens <+: tokens' → c.decrypt? viewer tokens' = some n := by
  refine ⟨?_, fun c h viewer tokens' howner hgoes => decrypt?_of_encrypt hgoes howner.symm h⟩
  rw [← exists_plaintext?_iff]
  constructor
  · rintro ⟨c, h⟩
    obtain ⟨plaintext, hplaintext, -⟩ := toList_of_encrypt h
    exact ⟨plaintext, hplaintext⟩
  · rintro ⟨plaintext, hplaintext⟩
    exact exists_encrypt hplaintext ephemeral

end Note

namespace Desk

/-- As many tokens as a byte can name, the zero address the last of them. -/
def namedTokens : List LedgerAddress := List.replicate 126 ⟨5, by decide⟩ ++ [.zero]

/-- A single token of the last contract that can be named. -/
def lastTokenNote : Note := ⟨ownDesk.account.address, 12, ⟨0, .zero, 0, 9⟩⟩

/-- The last token is named under the zero scalar and read with one token more; behind another token
it has no name. -/
theorem encrypt_iff_lastTokenNote :
    (∃ c, lastTokenNote.encrypt namedTokens 0 = .ok c ∧
      c.decrypt? ownDesk.account.viewer (namedTokens ++ [⟨2, by decide⟩]) = some lastTokenNote) ∧
      ¬ ∃ c, lastTokenNote.encrypt (⟨5, by decide⟩ :: namedTokens) 0 = .ok c := by
  have hfits : lastTokenNote.Encryptable namedTokens := ⟨by decide, .inr (by decide)⟩
  have hnot : ¬ lastTokenNote.Encryptable (⟨5, by decide⟩ :: namedTokens) := by
    rintro ⟨-, ⟨-, -, htokenId⟩ | ⟨-, hmem, -⟩⟩
    · exact absurd htokenId (by decide)
    · exact absurd hmem (by decide)
  obtain ⟨hiff, hread⟩ := lastTokenNote.encrypt_iff namedTokens 0
  obtain ⟨c, hc⟩ := hiff.mpr hfits
  refine ⟨⟨c, hc, hread c hc _ _ rfl (List.prefix_append _ _)⟩, fun h => hnot ?_⟩
  exact (lastTokenNote.encrypt_iff _ 0).1.mp h

end Desk

end ShieldedWallet
