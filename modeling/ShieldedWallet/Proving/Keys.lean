/-
Key files of the circuits.

Each shape of transaction, given by its counts of inputs and outputs, has a
circuit of its own with three files: the program that computes the witness, the
proving key and the verifying key.  They are looked for in a local directory
first, all three together.  Otherwise they are taken from a scratch directory,
into which missing ones are downloaded from a remote root with the same layout.

* `KeyStore.resolve` — the three paths of a shape, the files that exist
  afterwards, and the addresses that were fetched;
* `KeyFiles.under` — the three paths below a root.

Design notes: the network is a function from addresses to answers, so
resolution is a function of the files and the network.  A download that fails
leaves the earlier ones in place for the next call, and the directories made for
it.  A scratch directory exists exactly if there is a remote root.
-/
import ShieldedWallet.Files.Tree

namespace ShieldedWallet

/-! ### Names -/

/-- The name of the circuit for a shape. -/
def circuitName (inputs outputs : Nat) : String := s!"zk_transaction_{inputs}_{outputs}"

/-- The three files of a circuit. -/
@[ext] structure KeyFiles where
  /-- The program that computes the witness. -/
  program : String
  provingKey : String
  verifyingKey : String
  deriving DecidableEq

namespace KeyFiles

/-- The files of a circuit, relative to their root. -/
def relative (circuit : String) : KeyFiles where
  program := "circuits/" ++ circuit ++ ".wasm"
  provingKey := "zkeys/" ++ circuit ++ ".zkey"
  verifyingKey := "vks/" ++ circuit ++ ".vk.json"

/-- The files below a root. -/
def under (k : KeyFiles) (root : String) : KeyFiles :=
  ⟨below root k.program, below root k.provingKey, below root k.verifyingKey⟩

/-- The three paths in order. -/
def toList (k : KeyFiles) : List String := [k.program, k.provingKey, k.verifyingKey]

/-- The first of the files that does not exist. -/
def firstMissing? (k : KeyFiles) (files : FileTree) : Option String :=
  k.toList.find? fun path => !files.contains path

end KeyFiles

/-! ### Resolution -/

/-- Why key files are not at hand. -/
inductive KeyError where
  /-- A file of a circuit is missing. -/
  | missing (circuit path : String)
  /-- An address gives no answer. -/
  | download (address reason : String)
  /-- A download cannot be kept at its path. -/
  | blocked (path : String) (fault : WriteFault)
  deriving DecidableEq

/-- The report of key files that are not at hand. -/
def KeyError.message : KeyError → String
  | .missing circuit path => "Circuit " ++ circuit ++ " is missing " ++ path
  | .download address reason => "Failed to download " ++ address ++ ": " ++ reason
  | .blocked _ fault => "Circuit cache IO error: " ++ fault.message

/-- A remote root and the scratch directory that its files are downloaded to. -/
structure RemoteKeys where
  /-- The root, without slashes at its end. -/
  root : String
  scratch : String
  deriving DecidableEq

/-- Where key files are looked for. -/
structure KeyStore where
  /-- The directory that is searched first. -/
  localDir : Option String
  /-- Where files are downloaded from and to. -/
  remote : Option RemoteKeys
  deriving DecidableEq

/-- The text without slashes at its end. -/
def trimSlashes (text : String) : String :=
  String.ofList ((text.toList.reverse.dropWhile (· = '/')).reverse)

/-- Answers for an address with the bytes found there, or with the reason why the fetch fails. -/
abbrev Network := String → Except String Bytes

/-- The outcome of a resolution. -/
structure Resolution where
  /-- The paths, or why there are none. -/
  result : Except KeyError KeyFiles
  /-- The files that exist afterwards. -/
  files : FileTree
  /-- The addresses fetched, in order. -/
  fetched : List String

namespace KeyStore

/-- A store with a scratch directory if there is a remote root. -/
def new (localDir remoteRoot : Option String) (scratch : String) : KeyStore where
  localDir
  remote := remoteRoot.map fun root => ⟨trimSlashes root, scratch⟩

/-- Downloads those of a list of targets that do not exist, each from its address, until one
fails. -/
def downloadMissing (network : Network) (files : FileTree) :
    List (String × String) → Except KeyError Unit × FileTree × List String
  | [] => (.ok (), files, [])
  | (address, target) :: rest =>
    if files.contains target then downloadMissing network files rest
    else
      match network address with
      | .error reason => (.error (.download address reason), files, [address])
      | .ok bytes =>
        match files.write target bytes with
        | (.error fault, files) => (.error (.blocked target fault), files, [address])
        | (.ok (), files) =>
          let (outcome, files, fetched) := downloadMissing network files rest
          (outcome, files, address :: fetched)

/-- The files of a circuit in the scratch directory, after downloading what is missing. -/
def resolveRemote (network : Network) (files : FileTree) (circuit : String) (remote : RemoteKeys) :
    Resolution :=
  let relative := KeyFiles.relative circuit
  let cached := relative.under remote.scratch
  let addresses := relative.toList.map fun path => remote.root ++ "/" ++ path
  match downloadMissing network files (addresses.zip cached.toList) with
  | (.error e, files, fetched) => ⟨.error e, files, fetched⟩
  | (.ok (), files, fetched) =>
    match cached.firstMissing? files with
    | some path => ⟨.error (.missing circuit path), files, fetched⟩
    | none => ⟨.ok cached, files, fetched⟩

/-- The local file that keeps a circuit from being complete; the first file of the circuit if there
is no local directory. -/
def missingLocal (s : KeyStore) (files : FileTree) (relative : KeyFiles) : String :=
  match s.localDir with
  | none => relative.program
  | some dir => ((relative.under dir).firstMissing? files).getD relative.program

/-- The files of a circuit in the local directory, if all three exist there. -/
def local? (s : KeyStore) (files : FileTree) (relative : KeyFiles) : Option KeyFiles :=
  match s.localDir with
  | none => none
  | some dir =>
    let found := relative.under dir
    if (found.firstMissing? files).isNone then some found else none

/-- The key files for a shape. -/
def resolve (s : KeyStore) (network : Network) (files : FileTree) (inputs outputs : Nat) :
    Resolution :=
  let circuit := circuitName inputs outputs
  let relative := KeyFiles.relative circuit
  match s.local? files relative with
  | some found => ⟨.ok found, files, []⟩
  | none =>
    match s.remote with
    | some remote => resolveRemote network files circuit remote
    | none => ⟨.error (.missing circuit (s.missingLocal files relative)), files, []⟩

end KeyStore

end ShieldedWallet
