/-
Encryption of a note for its owner.

The sender draws an ephemeral scalar and sends its multiple of the generator;
the same scalar's multiple of the owner's viewing point is the secret both
sides can compute.  A key stream derived from the secret and the ephemeral
point covers 49 bytes: the salt in 16, one byte that names the token, and an
amount in 32.  The token byte is zero for ether, and otherwise one plus the
token's place in a list both sides know, with the top bit set for a single
token.

* `Note.plaintext?` — the 49 bytes of a note, if it can be written so;
* `Note.encrypt` — the 81 bytes sent to the owner;
* `EncryptedNote.decrypt?` — the note that a viewer reads out of 81 bytes;
* `EncryptedNote.decryptExpected?` — the same, kept only if its hash is one of
  those expected.

Design notes: nothing in the 81 bytes authenticates them, so a decryption is a
candidate until its hash is found among the outputs of the transaction.
-/
import ShieldedWallet.Note.Basic

namespace ShieldedWallet

-- Powers of numbers are those of the core library, whatever else is imported.
attribute [local instance (high)] instPowNat

/-- Bytes of an encrypted note. -/
def encryptedNoteLength : Nat := 81

/-- An encrypted note. -/
abbrev EncryptedNote := FixedBytes encryptedNoteLength

namespace NoteEncryption

/-- Bytes of a note before encryption. -/
def plaintextLength : Nat := 49

/-- Tokens that the token byte can name. -/
def maxTokens : Nat := 127

/-- Marks a single token in the token byte. -/
def singleFlag : UInt8 := 0x80

/-- The context under which key streams are derived. -/
def context : String := "veil 2024 note encryption v1"

/-- The key stream of a shared secret and an ephemeral point, both compressed. -/
def keyStream (shared ephemeral : FixedBytes 32) : Bytes :=
  (Blake3.deriveKey context (shared.toList ++ ephemeral.toList) plaintextLength).toList

/-- The token byte and the amount that stand for an asset. -/
def assetCode (tokens : List LedgerAddress) (a : Asset) : Except NoteError (UInt8 × Amount) :=
  if a.isEtherOnly then .ok (0, a.eth)
  else if a.eth ≠ 0 then .error (.unencryptable .etherBesideToken)
  else
    match (tokens.take maxTokens).idxOf? a.token with
    | none => .error (.unknownToken a.token)
    | some index =>
      let id := UInt8.ofNat (index + 1)
      if a.isFungible then .ok (id, a.amount)
      else if a.isSingle then .ok (id ||| singleFlag, a.tokenId)
      else .error (.unencryptable .noPosition)

/-- The asset that a token byte and an amount stand for. -/
def assetOfCode? (tokens : List LedgerAddress) (id : UInt8) (value : Amount) : Option Asset :=
  if id = 0 then some (.ether value)
  else
    match (id &&& 0x7f).toNat with
    | 0 => none
    | index + 1 =>
      match tokens[index]? with
      | none => none
      | some token =>
        (if id &&& singleFlag = 0 then Asset.fungible token value 0
          else Asset.single token value 0).toOption

end NoteEncryption

open NoteEncryption

namespace Note

/-- The salt in 16 bytes, the token byte, and the amount in 32. -/
def plaintext? (n : Note) (tokens : List LedgerAddress) : Except NoteError Bytes :=
  if 2 ^ (128 : Nat) ≤ n.salt.val then .error (.unencryptable .wideSalt)
  else do
    let (id, value) ← assetCode tokens n.asset
    return Bytes.ofNatBE 16 n.salt.val ++ id :: value.toBytesBE.toList

/-- The note encrypted for its owner under an ephemeral scalar. -/
def encrypt (n : Note) (tokens : List LedgerAddress) (ephemeral : Scalar) :
    Except NoteError EncryptedNote := do
  let plaintext ← n.plaintext? tokens
  let ephemeralPoint := (Point.base ephemeral).compress
  let shared := (n.owner.viewingKey.scale ephemeral).compress
  return .ofListPadded encryptedNoteLength
    (ephemeralPoint.toList ++ Bytes.xor plaintext (keyStream shared ephemeralPoint))

end Note

namespace EncryptedNote

/-- The compressed ephemeral point. -/
def ephemeralBytes (c : EncryptedNote) : FixedBytes 32 := .ofListPadded 32 c.toList

/-- The 49 bytes before encryption, under the viewing scalar of their reader. -/
def plaintext? (c : EncryptedNote) (viewingScalar : Scalar) : Option Bytes :=
  match Point.decompress? c.ephemeralBytes with
  | none => none
  | some ephemeral =>
    let shared := (ephemeral.scale viewingScalar).compress
    some (Bytes.xor (c.toList.drop 32) (keyStream shared c.ephemeralBytes))

/-- The note that a viewer reads. -/
def decrypt? (c : EncryptedNote) (viewer : Viewer) (tokens : List LedgerAddress) : Option Note :=
  match c.plaintext? viewer.viewingScalar with
  | none => none
  | some plaintext =>
    let salt := Bytes.toNatBE (plaintext.take 16)
    let value := Amount.ofBytesBE (.ofListPadded 32 (plaintext.drop 17))
    match assetOfCode? tokens (plaintext.getD 16 0) value with
    | none => none
    | some asset => some ⟨viewer.address, Felt.ofNat salt, asset⟩

/-- The note that a viewer reads, if its hash is among those expected. -/
def decryptExpected? (c : EncryptedNote) (viewer : Viewer) (tokens : List LedgerAddress)
    (expected : List Felt) : Option Note :=
  match c.decrypt? viewer tokens with
  | none => none
  | some note => if note.hash ∈ expected then some note else none

end EncryptedNote

end ShieldedWallet
