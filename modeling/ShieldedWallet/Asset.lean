/-
What a note is worth.

An asset is an amount of ether and at most one token position: an amount of a
fungible token, or the id of a single token.  The constructors `fungible` and
`single` refuse a position of zero; the record itself may hold both or neither,
and such assets are worth their ether only.

* `isFungible`, `isSingle`, `isEtherOnly` — the three kinds; no asset is of two
  of them.
-/
import ShieldedWallet.Address.Ledger

namespace ShieldedWallet

/-- Why a note does not fit the fixed width of an encrypted note. -/
inductive EncryptionObstacle where
  /-- The salt takes more than 128 bits. -/
  | wideSalt
  /-- The note holds ether beside a token. -/
  | etherBesideToken
  /-- The note names a token, and holds an amount and an id of it or neither. -/
  | noPosition
  deriving DecidableEq

/-- A total over notes. -/
inductive NoteTotal where
  | ether
  | fungible
  deriving DecidableEq

/-- Why a note is refused. -/
inductive NoteError where
  /-- The seed is not the viewing scalar of the owner. -/
  | notOwner
  /-- A position of a fungible token is zero. -/
  | zeroAmount
  | zeroTokenId
  /-- The token is not among those that encryption can refer to. -/
  | unknownToken (token : LedgerAddress)
  /-- The note does not fit the fixed width of an encrypted note. -/
  | unencryptable (obstacle : EncryptionObstacle)
  | overflow (total : NoteTotal)
  deriving DecidableEq

/-- The obstacle in words. -/
def EncryptionObstacle.message : EncryptionObstacle → String
  | .wideSalt => "salt wider than 128 bits"
  | .etherBesideToken => "note carries both ether and a token"
  | .noPosition => "token note without amount or id"

/-- The total in words. -/
def NoteTotal.message : NoteTotal → String
  | .ether => "ether"
  | .fungible => "erc20"

/-- The report of a refused note. -/
def NoteError.message : NoteError → String
  | .notOwner => "Nullifier seed does not match the note owner's viewing key"
  | .zeroAmount => "ERC20 note amount must be non-zero"
  | .zeroTokenId => "NFT id must be non-zero"
  | .unknownToken token => "Token " ++ token.toText ++ " is not in the note encryption token list"
  | .unencryptable obstacle =>
    "Note cannot be encrypted into a fixed-width memo: " ++ obstacle.message
  | .overflow total => "Total " ++ total.message ++ " of the notes exceeds 256 bits"

/-- Ether and a token position. -/
@[ext] structure Asset where
  /-- Ether, in its smallest unit. -/
  eth : Amount
  /-- The contract of the token position. -/
  token : LedgerAddress
  amount : Amount
  tokenId : Amount
  deriving DecidableEq

namespace Asset

instance : Inhabited Asset := ⟨⟨0, .zero, 0, 0⟩⟩

/-- Ether alone. -/
def ether (eth : Amount) : Asset := ⟨eth, .zero, 0, 0⟩

/-- An amount of a fungible token, with ether. -/
def fungible (token : LedgerAddress) (amount eth : Amount) : Except NoteError Asset :=
  if amount = 0 then .error .zeroAmount else .ok ⟨eth, token, amount, 0⟩

/-- A single token by its id, with ether. -/
def single (token : LedgerAddress) (tokenId eth : Amount) : Except NoteError Asset :=
  if tokenId = 0 then .error .zeroTokenId else .ok ⟨eth, token, 0, tokenId⟩

/-- The token position is an amount of a fungible token. -/
def isFungible (a : Asset) : Bool := a.amount ≠ 0 && a.tokenId = 0

/-- The token position is a single token. -/
def isSingle (a : Asset) : Bool := a.amount = 0 && a.tokenId ≠ 0

/-- There is no token position and no token. -/
def isEtherOnly (a : Asset) : Bool := a.token = .zero && a.amount = 0 && a.tokenId = 0

theorem isSingle_eq_false_of_isFungible {a : Asset} (h : a.isFungible = true) :
    a.isSingle = false := by
  simp_all [isFungible, isSingle]

theorem isFungible_eq_false_of_isEtherOnly {a : Asset} (h : a.isEtherOnly = true) :
    a.isFungible = false := by
  simp_all [isFungible, isEtherOnly]

end Asset

end ShieldedWallet
