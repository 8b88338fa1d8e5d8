/-
Proving by an external program.

The program is started twice: to prove, leaving a proof file and a file of
public signals, and to verify.  A run fails if the program cannot be started,
is still running at the time limit, or ends with another code than zero, in
which case its error output is the reason.  Then the proof file is read, the
file of signals, and last the coordinates of the proof.

* `ExternalRun.outcome` — how one run ends under a time limit;
* `ExternalSession.ofProgram` — how a program behaves that leaves no files;
* `ProofFile.ofText?` — the content of a proof file: an object with three known
  members, each exactly once, or an array of the three;
* `commandProver` — the prover that runs an external program.

Design notes: how the program behaves, the time it takes and the files it
leaves behind included, is given as an argument.
-/
import ShieldedWallet.Files.Program
import ShieldedWallet.Json.Parser
import ShieldedWallet.Proving.Prover
import ShieldedWallet.Text.Utf8

namespace ShieldedWallet

/-! ### Runs -/

/-- How the program behaves when it is started. -/
inductive ExternalRun where
  /-- It cannot be started. -/
  | notStarted (fault : StartFault)
  /-- It runs for some milliseconds and ends with a code and error output. -/
  | started (milliseconds : Nat) (code : UInt8) (errors : Bytes)
  deriving DecidableEq

/-- The run ends well, or why it does not; the limit is in seconds. -/
def ExternalRun.outcome (run : ExternalRun) (binary : String) (limit : Option Nat) :
    Except String Unit :=
  match run with
  | .notStarted fault => .error ("failed to start " ++ binary ++ ": " ++ fault.message)
  | .started milliseconds code errors =>
    match limit with
    | some seconds =>
      if 1000 * seconds ≤ milliseconds then .error s!"prover timed out after {seconds}s"
      else if code = 0 then .ok ()
      else .error (Utf8.decodeLossy errors)
    | none => if code = 0 then .ok () else .error (Utf8.decodeLossy errors)

/-- The program is started and ends within the limit in seconds. -/
def ExternalRun.ends (run : ExternalRun) (limit : Option Nat) : Bool :=
  match run with
  | .notStarted _ => false
  | .started milliseconds _ _ => limit.all fun seconds => milliseconds < 1000 * seconds

/-- How the program behaves on a witness, and the files it leaves behind. -/
structure ExternalSession where
  prove : ExternalRun
  verify : ExternalRun
  /-- The proof file, if one is left. -/
  proofFile : Option String
  /-- The file of public signals, if one is left. -/
  signalsFile : Option String

/-- The run of the program of a name. -/
def ExternalRun.ofProgram (files : FileTree) (name : String) : ExternalRun :=
  match files.findProgram name with
  | .ok code => .started 0 code []
  | .error fault => .notStarted fault

/-- The session with the program of a name, which leaves no files behind. -/
def ExternalSession.ofProgram (files : FileTree) (name : String) : ExternalSession where
  prove := .ofProgram files name
  verify := .ofProgram files name
  proofFile := none
  signalsFile := none

/-! ### Files -/

/-- The content of a proof file: rows of coordinates as texts. -/
structure ProofFile where
  /-- The first point. -/
  a : List String
  /-- The rows of the second point. -/
  b : List (List String)
  /-- The third point. -/
  c : List String
  deriving DecidableEq

/-- The value of the member with a name, if exactly one member has it. -/
def soleMember? (members : List (Option String × Json.Value)) (name : String) : Option Json.Value :=
  match members.filter fun m => m.1 = some name with
  | [m] => some m.2
  | _ => none

namespace ProofFile

/-- The content given by the values of the three members. -/
def ofValues? (a b c : Json.Value) : Option ProofFile := do
  let a ← a.texts?
  let rows ← b.elements?
  let b ← rows.mapM Json.Value.texts?
  let c ← c.texts?
  return ⟨a, b, c⟩

/-- The content of a file. -/
def ofText? (text : String) : Option ProofFile := do
  match ← Json.parse? text with
  | .array [a, b, c] => ofValues? a b c
  | .object members =>
    if members.all fun m => m.1.isSome then
      ofValues? (← soleMember? members "pi_a") (← soleMember? members "pi_b")
        (← soleMember? members "pi_c")
    else none
  | _ => none

/-- Why a text is no coordinate. -/
def parseErrorName : Amount.ParseError → String
  | .invalidCharacter => "InvalidCharacter"
  | .tooLong => "InvalidLength"

/-- The coordinate with a given number in a row. -/
def coordinate (row : List String) (i : Nat) : Except String Amount :=
  match row[i]? with
  | none => .error "proof.json is missing a coordinate"
  | some text =>
    (Amount.ofDecimal? text).mapError fun e =>
      "bad proof coordinate " ++ text ++ ": " ++ parseErrorName e

/-- The row with a given number. -/
def row (f : ProofFile) (i : Nat) : Except String (List String) :=
  match f.b[i]? with
  | none => .error "proof.json is missing a pi_b row"
  | some row => .ok row

/-- The proof that a file holds; superfluous rows and coordinates are left out. -/
def toProof (f : ProofFile) : Except String Groth16Proof := do
  let ax ← coordinate f.a 0
  let ay ← coordinate f.a 1
  let first ← f.row 0
  let b00 ← coordinate first 0
  let b01 ← coordinate first 1
  let second ← f.row 1
  let b10 ← coordinate second 0
  let b11 ← coordinate second 1
  let cx ← coordinate f.c 0
  let cy ← coordinate f.c 1
  return { ax, ay, b00, b01, b10, b11, cx, cy }

end ProofFile

/-- The text of a file that has to be there. -/
def requireFile (name : String) : Option String → Except String String
  | some text => .ok text
  | none => .error (name ++ ": No such file or directory (os error 2)")

/-- A value that a text has to write. -/
def requireJson {α : Type} : Option α → Except String α
  | some a => .ok a
  | none => .error "invalid JSON"

/-- The texts in a file of public signals. -/
def signalsOfText? (text : String) : Option (List String) :=
  (Json.parse? text).bind Json.Value.texts?

namespace ExternalSession

/-- Every run that is started ends within the limit in seconds, and one is started. -/
def ends (s : ExternalSession) (binary : String) (limit : Option Nat) : Bool :=
  s.prove.ends limit && ((s.prove.outcome binary limit).toOption.isNone || s.verify.ends limit)

/-- The proof and the signals that a session leaves, under a time limit in seconds. -/
def result (s : ExternalSession) (binary : String) (limit : Option Nat) :
    Except String ProvedSignals := do
  s.prove.outcome binary limit
  s.verify.outcome binary limit
  let proofText ← requireFile "proof.json" s.proofFile
  let file ← requireJson (ProofFile.ofText? proofText)
  let signalsText ← requireFile "public.json" s.signalsFile
  let publicSignals ← requireJson (signalsOfText? signalsText)
  let proof ← file.toProof
  return { proof, publicSignals }

end ExternalSession

/-- The prover that runs an external program; `behaviour` says how the program behaves on the text
of a witness and its key files. -/
def commandProver (binary : String) (limit : Option Nat)
    (behaviour : String → KeyFiles → ExternalSession) : Prover := fun w keys =>
  match (behaviour w.json keys).result binary limit with
  | .ok result => .proved result
  | .error reason => .failed reason

end ShieldedWallet
