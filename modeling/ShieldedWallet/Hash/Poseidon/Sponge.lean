/-
The Poseidon sponge over the field of the circuit.

Inputs are added two at a time to the open words of the state, with the
permutation run between the pairs and once more at the end; the output is the
first open word.

* `poseidon` — the hash of a list of elements.

Design notes: the list of inputs is not padded, so a list and the same list
with a zero appended may share a hash if its length is odd.  Lists of one
length are what callers compare.
-/
import ShieldedWallet.Hash.Poseidon.Constants

namespace ShieldedWallet

namespace Poseidon

/-- The fifth power. -/
def fifthPower (a : Felt) : Felt :=
  let square := a * a
  square * square * a

/-- Word-wise sum. -/
def State.add (s t : State) : State :=
  ⟨s.hidden + t.hidden, s.first + t.first, s.second + t.second⟩

/-- Scalar product. -/
def State.dot (s t : State) : Felt :=
  s.hidden * t.hidden + s.first * t.first + s.second * t.second

/-- Multiplies the state by the mixing matrix. -/
def mix (s : State) : State :=
  ⟨mixingRows.1.dot s, mixingRows.2.1.dot s, mixingRows.2.2.dot s⟩

/-- A round that raises every word to its fifth power. -/
def fullRound (s key : State) : State :=
  let t := s.add key
  mix ⟨fifthPower t.hidden, fifthPower t.first, fifthPower t.second⟩

/-- A round that raises the hidden word only. -/
def partialRound (s key : State) : State :=
  let t := s.add key
  mix { t with hidden := fifthPower t.hidden }

/-- Full rounds on each side of the partial ones. -/
def outerRounds : Nat := 4

/-- Partial rounds. -/
def innerRounds : Nat := 57

/-- The permutation: full rounds, partial rounds, and full rounds again. -/
def permute (s : State) : State :=
  let keys := roundKeys
  let s := (keys.take outerRounds).foldl fullRound s
  let s := ((keys.drop outerRounds).take innerRounds).foldl partialRound s
  (keys.drop (outerRounds + innerRounds)).foldl fullRound s

/-- Adds inputs to the open words, two at a time, with the permutation between pairs. -/
def absorb : State → List Felt → State
  | s, [] => s
  | s, [a] => s.add ⟨0, a, 0⟩
  | s, [a, b] => s.add ⟨0, a, b⟩
  | s, a :: b :: c :: rest => absorb (permute (s.add ⟨0, a, b⟩)) (c :: rest)

end Poseidon

/-- The Poseidon hash of a list of field elements. -/
def poseidon (inputs : List Felt) : Felt :=
  (Poseidon.permute (Poseidon.absorb ⟨0, 0, 0⟩ inputs)).first

end ShieldedWallet
