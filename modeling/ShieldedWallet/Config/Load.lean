/-
Where settings come from.

Settings are read from a file: the one that a variable names if it exists, or
one in the working directory, or one in the home directory.  Without any of
them the defaults hold.  The environment overrides what was read.

* `Config.load` — the settings from the first file that exists;
* `Config.loadFrom` — the settings from a given file;
* `Config.LoadError.message` — what is said of a file that is no help.
-/
import ShieldedWallet.Config.Document
import ShieldedWallet.Files.Tree

namespace ShieldedWallet

namespace Config

/-- Why settings could not be loaded. -/
inductive LoadError where
  /-- There is no text at the path. -/
  | unreadable (path : String)
  /-- The text at the path is no document of settings. -/
  | malformed (path : String)
  deriving DecidableEq

/-- What is said of a failure. -/
def LoadError.message : LoadError → String
  | .unreadable path => "Failed to read config file: " ++ path
  | .malformed path => "Failed to parse config file: " ++ path

/-- The file of the working directory. -/
def workingPath : String := "config.toml"

/-- The file of a home directory. -/
def homePath (home : String) : String := below (below home ".veil") "config.toml"

/-- The settings of a file. -/
def read (files : FileTree) (path : String) : Except LoadError Config := do
  let some text := files.readText? path | throw (.unreadable path)
  let some c := ofToml? text | throw (.malformed path)
  return c

/-- The settings of a file under an environment. -/
def loadFrom (files : FileTree) (env : Environment) (path : String) : Except LoadError Config :=
  (read files path).map (override env)

/-- The paths that are tried in turn. -/
def candidates (env : Environment) (home : Option String) : List String :=
  (env "VEIL_CONFIG").toList ++ [workingPath] ++ (home.map homePath).toList

/-- The first of the paths at which something stands. -/
def find? (files : FileTree) (env : Environment) (home : Option String) : Option String :=
  (candidates env home).find? files.contains

/-- The settings from the first file that exists, or the defaults, under an environment. -/
def load (files : FileTree) (env : Environment) (home : Option String) : Except LoadError Config :=
  match find? files env home with
  | some path => loadFrom files env path
  | none => .ok (override env {})

end Config

end ShieldedWallet
