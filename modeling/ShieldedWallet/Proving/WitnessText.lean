/-
The witness as the prover reads it.

The witness is one JSON object without blanks, its members in the order in
which the circuit declares the signals, and every signal a string.

* `Witness.json` — the text of a witness;
* `Witness.ofJson?` — the witness of a text, a column being empty if its member
  is missing.
-/
import ShieldedWallet.Json.Parser
import ShieldedWallet.Json.Text
import ShieldedWallet.Proving.Witness

namespace ShieldedWallet.Witness

/-! ### Writing -/

/-- A column of signals. -/
def column (signals : List String) : String := Json.array (signals.map Json.quote)

/-- A column of pairs. -/
def pairColumn (pairs : List (String × String)) : String :=
  Json.array (pairs.map fun (x, y) => column [x, y])

/-- A column of triples. -/
def tripleColumn (triples : List (String × String × String)) : String :=
  Json.array (triples.map fun (x, y, z) => column [x, y, z])

/-- The text of a witness. -/
def json (w : Witness String) : String :=
  Json.object
    [("spendingNoteEddsaPoint", pairColumn w.spentSigningPoint),
     ("spendingNoteEddsaSig", tripleColumn w.spentSignature),
     ("spendingNoteNullifierSeed", column w.spentSeed),
     ("spendingNoteSalt", column w.spentSalt),
     ("spendingNoteEth", column w.spentEth),
     ("spendingNoteTokenAddr", column w.spentToken),
     ("spendingNoteErc20", column w.spentAmount),
     ("spendingNoteErc721", column w.spentTokenId),
     ("noteIndex", column w.spentIndex),
     ("siblings", Json.array (w.siblings.map column)),
     ("inclusionReferences", column w.roots),
     ("nullifiers", column w.nullifiers),
     ("newNoteSpendingPubKey", column w.newSpendingKey),
     ("newNoteViewingKey", pairColumn w.newViewingKey),
     ("newNoteSalt", column w.newSalt),
     ("newNoteEth", column w.newEth),
     ("newNoteTokenAddr", column w.newToken),
     ("newNoteErc20", column w.newAmount),
     ("newNoteErc721", column w.newTokenId),
     ("newNoteHash", column w.newHash),
     ("typeofNewNote", column w.kinds),
     ("publicDataTo", column w.publicTo),
     ("publicDataEth", column w.publicEth),
     ("publicDataTokenAddr", column w.publicToken),
     ("publicDataErc20", column w.publicAmount),
     ("publicDataErc721", column w.publicTokenId),
     ("publicDataFee", column w.publicFee),
     ("fee", Json.quote w.fee),
     ("swap", Json.quote w.swap)]

/-! ### Reading -/

/-- The members of an object. -/
abbrev Members := List (Option String × Json.Value)

/-- A part of a witness, empty if it is missing. -/
def readPart {α : Type} (read : Json.Value → Option α) (empty : α) (members : Members)
    (name : String) : Option α :=
  match members.lookup (some name) with
  | some v => read v
  | none => some empty

/-- A column of signals. -/
def readColumn : Members → String → Option (List String) :=
  readPart Json.Value.texts? []

/-- A column whose entries are lists of signals. -/
def readRows : Members → String → Option (List (List String)) :=
  readPart (fun v => v.elements?.bind (List.mapM Json.Value.texts?)) []

/-- A column of pairs. -/
def readPairs (members : Members) (name : String) : Option (List (String × String)) := do
  let rows ← readRows members name
  rows.mapM fun row =>
    match row with
    | [x, y] => some (x, y)
    | _ => none

/-- A column of triples. -/
def readTriples (members : Members) (name : String) :
    Option (List (String × String × String)) := do
  let rows ← readRows members name
  rows.mapM fun row =>
    match row with
    | [x, y, z] => some (x, y, z)
    | _ => none

/-- The witness that has the given members. -/
def ofMembers? (ms : Members) : Option (Witness String) := do
  return {
    spentSigningPoint := ← readPairs ms "spendingNoteEddsaPoint"
    spentSignature := ← readTriples ms "spendingNoteEddsaSig"
    spentSeed := ← readColumn ms "spendingNoteNullifierSeed"
    spentSalt := ← readColumn ms "spendingNoteSalt"
    spentEth := ← readColumn ms "spendingNoteEth"
    spentToken := ← readColumn ms "spendingNoteTokenAddr"
    spentAmount := ← readColumn ms "spendingNoteErc20"
    spentTokenId := ← readColumn ms "spendingNoteErc721"
    spentIndex := ← readColumn ms "noteIndex"
    siblings := ← readRows ms "siblings"
    roots := ← readColumn ms "inclusionReferences"
    nullifiers := ← readColumn ms "nullifiers"
    newSpendingKey := ← readColumn ms "newNoteSpendingPubKey"
    newViewingKey := ← readPairs ms "newNoteViewingKey"
    newSalt := ← readColumn ms "newNoteSalt"
    newEth := ← readColumn ms "newNoteEth"
    newToken := ← readColumn ms "newNoteTokenAddr"
    newAmount := ← readColumn ms "newNoteErc20"
    newTokenId := ← readColumn ms "newNoteErc721"
    newHash := ← readColumn ms "newNoteHash"
    kinds := ← readColumn ms "typeofNewNote"
    publicTo := ← readColumn ms "publicDataTo"
    publicEth := ← readColumn ms "publicDataEth"
    publicToken := ← readColumn ms "publicDataTokenAddr"
    publicAmount := ← readColumn ms "publicDataErc20"
    publicTokenId := ← readColumn ms "publicDataErc721"
    publicFee := ← readColumn ms "publicDataFee"
    fee := ← readPart Json.Value.text? "" ms "fee"
    swap := ← readPart Json.Value.text? "" ms "swap" }

/-- The witness of a text. -/
def ofJson? (text : String) : Option (Witness String) :=
  match Json.parse? text with
  | some (.object members) => ofMembers? members
  | _ => none

end ShieldedWallet.Witness
