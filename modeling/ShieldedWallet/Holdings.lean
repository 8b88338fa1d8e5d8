/-
What a list of notes is worth in total.

Ether is counted for every note.  An amount of a fungible token counts for its
token, and a single token is listed under its contract; an asset that sets both
or neither counts for its ether only.

* `Holdings.ofNotes` — the totals of a list of notes, refused where one
  exceeds 256 bits.

Design notes: notes are added one by one in their order, so the first total to
overflow is the one reported, and the ids of single tokens keep the order of
the notes.
-/
import ShieldedWallet.Note.Basic
import ShieldedWallet.TokenMap

namespace ShieldedWallet

/-- Totals of ether, of fungible tokens and of single tokens. -/
structure Holdings where
  eth : Amount
  fungible : TokenMap Amount
  /-- The ids of each contract's single tokens, in the order of the notes. -/
  single : TokenMap (List Amount)
  deriving DecidableEq

namespace Holdings

/-- Nothing. -/
def empty : Holdings := ⟨0, [], []⟩

/-- The total of a fungible token; zero if no note holds it. -/
def amountOf (h : Holdings) (token : LedgerAddress) : Amount := (h.fungible.get? token).getD 0

/-- The ids of a contract's single tokens, in the order of the notes. -/
def idsOf (h : Holdings) (token : LedgerAddress) : List Amount := (h.single.get? token).getD []

/-- Adds the token position of an asset. -/
def addPosition (h : Holdings) (a : Asset) : Except NoteError Holdings :=
  if a.isFungible then
    match (h.amountOf a.token).add? a.amount with
    | none => .error (.overflow .fungible)
    | some total => .ok { h with fungible := h.fungible.set a.token total }
  else if a.isSingle then
    .ok { h with single := h.single.set a.token (h.idsOf a.token ++ [a.tokenId]) }
  else .ok h

/-- Adds an asset. -/
def addAsset (h : Holdings) (a : Asset) : Except NoteError Holdings :=
  match h.eth.add? a.eth with
  | none => .error (.overflow .ether)
  | some eth => addPosition { h with eth } a

/-- The totals of a list of assets. -/
def ofAssets (assets : List Asset) : Except NoteError Holdings := assets.foldlM addAsset empty

/-- The totals of a list of notes. -/
def ofNotes (notes : List Note) : Except NoteError Holdings := ofAssets (notes.map Note.asset)

/-- The ids of a contract's single tokens as a set: ascending and without repetition. -/
def idSet (h : Holdings) (token : LedgerAddress) : List Amount :=
  ((h.idsOf token).mergeSort (fun a b => decide (a ≤ b))).eraseReps

/-- The tokens of any total, ascending. -/
def tokens (h : Holdings) : List LedgerAddress :=
  ((h.fungible.keys ++ h.single.keys).mergeSort (fun a b => decide (a ≤ b))).eraseReps

end Holdings

end ShieldedWallet
