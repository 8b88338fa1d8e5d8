/-
Memos: what a transaction carries for its receivers.

A memo is one encrypted note, or a payload of at most 65535 bytes that starts
with a selector of four bytes.  Two kinds of payload are known: a batch of
encrypted notes, and an offer to a relayer who fronts a withdrawal, with its
fees, expiry, signature and notes.  The signature is preceded by its length in
two bytes and filled up with zeros to a multiple of 81.

* `MemoPayload.ofNotes`, `MemoPayload.ofPrepayment` — the payload of each kind;
* `MemoPayload.parse` — the content of a payload.

Design notes: each kind answers to two selectors, the first four bytes of the
digest of its signature text and a short older one.  Writing uses the first;
reading accepts both.
-/
import ShieldedWallet.Note.Encryption

namespace ShieldedWallet

-- Powers of numbers are those of the core library, whatever else is imported.
attribute [local instance (high)] instPowNat

/-- Why a memo is refused. -/
inductive MemoError where
  /-- The payload has more bytes than its length prefix can say. -/
  | tooLong (length : Nat)
  /-- The payload ends before its fixed fields do. -/
  | tooShort (length : Nat)
  /-- No kind of payload has this selector. -/
  | unknownSelector (selector : Bytes)
  /-- The bytes left for notes are no whole number of notes. -/
  | chunkLength (length : Nat)
  /-- The bytes that fill up the signature are not all zero. -/
  | padding
  /-- The signature has more bytes than its length prefix can say. -/
  | signatureTooLong (length : Nat)
  deriving DecidableEq

/-- The report of a refused memo. -/
def MemoError.message : MemoError → String
  | .tooLong length => s!"Memo is {length} bytes, v2 memos are limited to 65535"
  | .tooShort length => s!"Memo too short: {length} bytes"
  | .unknownSelector selector => "Unknown memo selector 0x" ++ Hex.encode selector
  | .chunkLength length =>
    s!"Note payload of {length} bytes is not a whole number of encrypted notes"
  | .padding => "Signature padding contains non-zero bytes"
  | .signatureTooLong length => s!"Signature of {length} bytes does not fit a u16 length prefix"

/-! ### Content -/

/-- An offer to a relayer to front a withdrawal. -/
@[ext] structure Prepayment where
  /-- The relayer's fee in ether. -/
  feeEth : Amount
  /-- The relayer's fee in the token withdrawn. -/
  feeToken : Amount
  /-- When the offer expires, in seconds of Unix time. -/
  expiration : UInt64
  signature : Bytes
  /-- Encrypted notes that travel with the offer. -/
  notes : List EncryptedNote
  deriving DecidableEq

/-- What a memo says. -/
inductive MemoContent where
  | note (note : EncryptedNote)
  | notes (notes : List EncryptedNote)
  | prepayment (record : Prepayment)
  deriving DecidableEq

/-- The encrypted notes of a memo, whatever else it says. -/
def MemoContent.encryptedNotes : MemoContent → List EncryptedNote
  | .note c => [c]
  | .notes cs => cs
  | .prepayment record => record.notes

/-! ### Payloads -/

/-- Bytes behind a length prefix of two bytes. -/
@[ext] structure MemoPayload where
  bytes : Bytes
  length_lt : bytes.length < 2 ^ (16 : Nat)
  deriving DecidableEq

namespace MemoPayload

/-- Bytes of a selector. -/
def selectorLength : Nat := 4

/-- The selector of a signature text. -/
def selectorOf (signature : String) : Bytes :=
  (keccak256 signature.toUTF8.toList).toList.take selectorLength

/-- The selector of a batch of notes. -/
def notesSelector : Bytes := selectorOf "notes(bytes)"

/-- The selector of an offer to a relayer. -/
def prepaymentSelector : Bytes := selectorOf "prepayWithdrawal(uint256,uint256,uint64,bytes)"

/-- The older selector of a batch of notes. -/
def notesShortSelector : Bytes := [0, 0, 0, 0]

/-- The older selector of an offer to a relayer. -/
def prepaymentShortSelector : Bytes := [0, 0, 0, 1]

/-- The payload of given bytes, if it is short enough. -/
def ofBytes (bytes : Bytes) : Except MemoError MemoPayload :=
  if h : bytes.length < 2 ^ (16 : Nat) then .ok ⟨bytes, h⟩ else .error (.tooLong bytes.length)

/-- Encrypted notes one after the other. -/
def noteBytes (notes : List EncryptedNote) : Bytes := notes.flatMap FixedBytes.toList

/-- The payload of a batch of notes. -/
def ofNotes (notes : List EncryptedNote) : Except MemoError MemoPayload :=
  ofBytes (notesSelector ++ noteBytes notes)

/-- A count of bytes rounded up to a multiple of the length of an encrypted note. -/
def paddedLength (length : Nat) : Nat :=
  (length + encryptedNoteLength - 1) / encryptedNoteLength * encryptedNoteLength

/-- The fields of an offer, behind the selector. -/
def prepaymentBody (record : Prepayment) : Bytes :=
  record.feeEth.toBytesBE.toList ++ record.feeToken.toBytesBE.toList ++
    Bytes.ofNatBE 8 record.expiration.toNat ++ Bytes.ofNatBE 2 record.signature.length ++
    record.signature ++
    List.replicate (paddedLength record.signature.length - record.signature.length) 0 ++
    noteBytes record.notes

/-- The payload of an offer to a relayer. -/
def ofPrepayment (record : Prepayment) : Except MemoError MemoPayload :=
  if 2 ^ (16 : Nat) ≤ record.signature.length then
    .error (.signatureTooLong record.signature.length)
  else ofBytes (prepaymentSelector ++ prepaymentBody record)

/-- The given number of encrypted notes, one after the other. -/
def takeNotes : (count : Nat) → Bytes → List EncryptedNote
  | 0, _ => []
  | n + 1, bytes =>
    .ofListPadded encryptedNoteLength bytes :: takeNotes n (bytes.drop encryptedNoteLength)

/-- The encrypted notes that bytes write one after the other. -/
def parseNotes (body : Bytes) : Except MemoError (List EncryptedNote) :=
  if body.length % encryptedNoteLength ≠ 0 then .error (.chunkLength body.length)
  else .ok (takeNotes (body.length / encryptedNoteLength) body)

/-- Bytes of the fixed fields of an offer. -/
def prepaymentHeader : Nat := 32 + 32 + 8 + 2

/-- The offer that bytes write behind the selector. -/
def parsePrepayment (body : Bytes) : Except MemoError Prepayment :=
  if body.length < prepaymentHeader then .error (.tooShort (selectorLength + body.length))
  else
    let signatureLength := Bytes.toNatBE ((body.drop 72).take 2)
    let rest := body.drop prepaymentHeader
    let padded := paddedLength signatureLength
    if rest.length < padded then .error (.tooShort (selectorLength + body.length))
    else
      let field := rest.take padded
      if (field.drop signatureLength).any (· ≠ 0) then .error .padding
      else do
        let notes ← parseNotes (rest.drop padded)
        return { feeEth := .ofBytesBE (.ofListPadded 32 body)
                 feeToken := .ofBytesBE (.ofListPadded 32 (body.drop 32))
                 expiration := UInt64.ofNat (Bytes.toNatBE ((body.drop 64).take 8))
                 signature := field.take signatureLength
                 notes }

/-- The content of a payload. -/
def parse (p : MemoPayload) : Except MemoError MemoContent :=
  if p.bytes.length < selectorLength then .error (.tooShort p.bytes.length)
  else
    let selector := p.bytes.take selectorLength
    let body := p.bytes.drop selectorLength
    if selector = notesSelector ∨ selector = notesShortSelector then
      (parseNotes body).map .notes
    else if selector = prepaymentSelector ∨ selector = prepaymentShortSelector then
      (parsePrepayment body).map .prepayment
    else .error (.unknownSelector selector)

end MemoPayload

/-! ### Memos -/

/-- What a transaction carries for its receivers. -/
inductive Memo where
  | note (note : EncryptedNote)
  | payload (payload : MemoPayload)
  deriving DecidableEq

namespace Memo

/-- Bytes that the memo takes up in a transaction. -/
def wireLength : Memo → Nat
  | .note _ => encryptedNoteLength
  | .payload p => 2 + p.bytes.length

/-- The content of a memo. -/
def parse : Memo → Except MemoError MemoContent
  | .note c => .ok (.note c)
  | .payload p => p.parse

end Memo

end ShieldedWallet
