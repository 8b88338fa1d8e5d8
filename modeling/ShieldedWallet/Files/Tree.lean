/-
Files, as far as the wallet looks at them.

A file system says what stands at each place, a place being the names on the
way to it from the root.  A path is a text with names between slashes.  It is
followed from the root, name by name, through directories only: an empty name
and a single dot stay, two dots go back to the parent.

* `FileTree.lookup` — what a path leads to, or the fault on the way;
* `FileTree.contains`, `FileTree.read?`, `FileTree.readText?` — looking;
* `FileTree.makeDirectories`, `FileTree.write`, `FileTree.remove?` — changes,
  none of which removes or replaces a directory;
* `FileTree.put_cases` — all that writing can do;
* `FileTree.read?_of_write` — what is written can be read;
* `below`, `directoryOf` — a path as it reads below a directory, and without its
  last name.

Design notes: writing makes the directories on the way, and those made stay if it
fails later on.  So a change has a tree also where it has a fault.  Paths that
name one place in different ways lead to the same entry, since only places have
entries.
-/
import ShieldedWallet.Bytes.Basic

namespace ShieldedWallet

/-- What stands at a place. -/
inductive FileEntry where
  /-- A file with its bytes. -/
  | file (bytes : Bytes)
  /-- A program that does nothing but end with a code. -/
  | program (code : UInt8)
  /-- A directory. -/
  | directory
  deriving DecidableEq

/-! ### Paths -/

/-- Why a path leads nowhere. -/
inductive PathFault where
  /-- Nothing stands there. -/
  | missing
  /-- What stands on the way is no directory. -/
  | notDirectory
  /-- A name on the way, or the path, is too long. -/
  | tooLong
  deriving DecidableEq

/-- What is said of a path that leads nowhere. -/
def PathFault.message : PathFault → String
  | .missing => "No such file or directory (os error 2)"
  | .notDirectory => "Not a directory (os error 20)"
  | .tooLong => "File name too long (os error 36)"

/-- The most bytes in a name. -/
def nameLimit : Nat := 255

/-- The most bytes in a path. -/
def pathLimit : Nat := 4095

/-- The names in a path, unless there are none or it is too long. -/
def pathNames (path : String) : Except PathFault (List String) :=
  if path = "" then .error .missing
  else if pathLimit < path.utf8ByteSize then .error .tooLong
  else .ok (path.splitOn "/")

/-- A path with a slash at its front: it is followed from the root, wherever it stands. -/
def isAbsolute (path : String) : Bool := path.toList.head? = some '/'

/-- A path as it reads below a directory. -/
def below (directory path : String) : String :=
  if directory = "" ∨ isAbsolute path then path
  else if directory.toList.getLast? = some '/' then directory ++ path
  else directory ++ "/" ++ path

/-- A path without its last name: the text before the last slash, and nothing if there is none. -/
def directoryOf (path : String) : String :=
  String.ofList ((path.toList.reverse.dropWhile (· ≠ '/')).drop 1).reverse

/-- A place: the names of the directories that lead to it, and its own name. -/
abbrev Place := List String

/-- The place that a name leads to from a directory. -/
def Place.step (place : Place) (name : String) : Except PathFault Place :=
  if nameLimit < name.utf8ByteSize then .error .tooLong
  else if name = "" ∨ name = "." then .ok place
  else if name = ".." then .ok place.dropLast
  else .ok (place ++ [name])

/-! ### Trees -/

/-- A file system: what stands at each place but the root, if anything. -/
structure FileTree where
  /-- The entry at a place. -/
  entry? : Place → Option FileEntry

namespace FileTree

/-- Nothing but the root. -/
def empty : FileTree := ⟨fun _ => none⟩

/-- What stands at a place; the root is a directory. -/
def get? (t : FileTree) (place : Place) : Option FileEntry :=
  if place = [] then some .directory else t.entry? place

/-- The tree with another entry at a place, or with none. -/
def set (t : FileTree) (place : Place) (entry : Option FileEntry) : FileTree :=
  ⟨fun p => if p = place then entry else t.entry? p⟩

/-- What stands at each place after a change at one where no directory stands. -/
theorem get?_set {t : FileTree} {place : Place} (hfree : t.get? place ≠ some .directory)
    (entry : Option FileEntry) (p : Place) :
    (t.set place entry).get? p = if p = place then entry else t.get? p := by
  have hroot : place ≠ [] := fun e => hfree (by rw [e]; rfl)
  unfold get? set
  by_cases hp : p = []
  · subst hp
    simp [Ne.symm hroot]
  · simp [hp]

/-! ### Looking -/

/-- The place that names lead to from a directory; every name but the last has to lead to a
directory. -/
def walk (t : FileTree) (place : Place) : List String → Except PathFault Place
  | [] => .ok place
  | name :: names =>
    match t.get? place with
    | some .directory =>
      match place.step name with
      | .ok next => t.walk next names
      | .error fault => .error fault
    | some _ => .error .notDirectory
    | none => .error .missing

/-- The place that a path leads to from a directory, whether or not something stands there. -/
def locateFrom (t : FileTree) (start : Place) (path : String) : Except PathFault Place := do
  t.walk (if isAbsolute path then [] else start) (← pathNames path)

/-- What a path leads to from a directory. -/
def lookupFrom (t : FileTree) (start : Place) (path : String) : Except PathFault FileEntry := do
  match t.get? (← t.locateFrom start path) with
  | some entry => .ok entry
  | none => .error .missing

/-- What a path leads to from the root. -/
def lookup (t : FileTree) (path : String) : Except PathFault FileEntry := t.lookupFrom [] path

/-- The path leads to something. -/
def contains (t : FileTree) (path : String) : Bool :=
  match t.lookup path with
  | .ok _ => true
  | .error _ => false

/-- The bytes of the file at a path. -/
def read? (t : FileTree) (path : String) : Option Bytes :=
  match t.lookup path with
  | .ok (.file bytes) => some bytes
  | _ => none

/-- The text of the file at a path. -/
def readText? (t : FileTree) (path : String) : Option String :=
  (t.read? path).bind fun bytes => String.fromUTF8? bytes.toByteArray

end FileTree

/-! ### Changing -/

/-- Why nothing is put at a path. -/
inductive WriteFault where
  /-- The path leads nowhere. -/
  | path (fault : PathFault)
  /-- Something else stands where a directory has to be. -/
  | occupied
  /-- A directory stands where something else has to be. -/
  | directory
  deriving DecidableEq

/-- What is said of a path that nothing is put at. -/
def WriteFault.message : WriteFault → String
  | .path fault => fault.message
  | .occupied => "File exists (os error 17)"
  | .directory => "Is a directory (os error 21)"

namespace FileTree

/-- How a change ends, and the tree that it leaves. -/
abbrev Change := Except WriteFault Unit × FileTree

/-- A change that leaves the tree as it is if it fails. -/
def attempt (t : FileTree) : Except WriteFault FileTree → Change
  | .ok u => (.ok (), u)
  | .error fault => (.error fault, t)

/-- A change after another one, unless that one fails. -/
def Change.andThen (c : Change) (next : FileTree → Change) : Change :=
  match c with
  | (.ok (), u) => next u
  | (.error fault, u) => (.error fault, u)

/-- The tree with a directory at the place that names lead to. -/
def makeDirectory (t : FileTree) (names : List String) : Except WriteFault FileTree :=
  match t.walk [] names with
  | .error fault => .error (.path fault)
  | .ok place =>
    match t.get? place with
    | none => .ok (t.set place (some .directory))
    | some .directory => .ok t
    | some _ => .error .occupied

/-- Makes a directory at the place that names lead to, and those on the way if they are missing. The
last name comes first. -/
def makeWay (t : FileTree) : List String → Change
  | [] => (.ok (), t)
  | name :: front =>
    match t.makeDirectory (name :: front).reverse with
    | .error (.path .missing) =>
      (t.makeWay front).andThen fun u => u.attempt (u.makeDirectory (name :: front).reverse)
    | outcome => t.attempt outcome

/-- Makes a directory at a path, and those on the way if they are missing. -/
def makeDirectories (t : FileTree) (path : String) : Change :=
  if path = "" then (.ok (), t)
  else
    match pathNames path with
    | .error fault => (.error (.path fault), t)
    | .ok names => t.makeWay names.reverse

/-- The tree with an entry at a path whose directory is there. -/
def create (t : FileTree) (path : String) (entry : FileEntry) : Except WriteFault FileTree :=
  match t.locateFrom [] path with
  | .error fault => .error (.path fault)
  | .ok place =>
    if t.get? place = some .directory then .error .directory else .ok (t.set place (some entry))

/-- Puts an entry at a path, after making the directories on the way that are missing. -/
def put (t : FileTree) (path : String) (entry : FileEntry) : Change :=
  (t.makeDirectories (directoryOf path)).andThen fun u => u.attempt (u.create path entry)

/-- Puts a file at a path, after making the directories on the way that are missing. -/
def write (t : FileTree) (path : String) (bytes : Bytes) : Change := t.put path (.file bytes)

/-- The tree without the file at a path. -/
def remove? (t : FileTree) (path : String) : Option FileTree := do
  let place ← (t.locateFrom [] path).toOption
  match t.get? place with
  | none => none
  | some .directory => none
  | some _ => some (t.set place none)

/-! ### Directories that stay -/

/-- One tree keeps the directories of another. -/
def KeepsDirectories (t u : FileTree) : Prop :=
  ∀ p, t.get? p = some .directory → u.get? p = some .directory

theorem KeepsDirectories.set {t : FileTree} {place : Place} {entry : Option FileEntry}
    (h : t.get? place ≠ some .directory) : t.KeepsDirectories (t.set place entry) := by
  intro p hp
  rw [get?_set h, if_neg (by rintro rfl; exact h hp)]
  exact hp

theorem walk_of_keepsDirectories {t u : FileTree} (h : t.KeepsDirectories u) {names : List String}
    {place target : Place} (hw : t.walk place names = .ok target) :
    u.walk place names = .ok target := by
  induction names generalizing place with
  | nil => exact hw
  | cons name names ih =>
    simp only [walk] at hw ⊢
    split at hw
    · next hd =>
      rw [h _ hd]
      split at hw
      · exact ih hw
      · cases hw
    · cases hw
    · cases hw

/-- The last name leads on from a directory. -/
theorem walk_concat {t : FileTree} {names : List String} {name : String} {place target : Place}
    (hw : t.walk place (names ++ [name]) = .ok target) :
    ∃ parent, t.walk place names = .ok parent ∧ t.get? parent = some .directory ∧
      parent.step name = .ok target := by
  induction names generalizing place with
  | nil =>
    rw [List.nil_append, walk] at hw
    split at hw
    · next hdirectory =>
      split at hw
      · next next hstep =>
        cases hw
        exact ⟨place, rfl, hdirectory, hstep⟩
      · cases hw
    · cases hw
    · cases hw
  | cons first names ih =>
    simp only [List.cons_append, walk] at hw ⊢
    split at hw
    · split at hw
      · exact ih hw
      · cases hw
    · cases hw
    · cases hw

/-- A path leads to the same place in a tree that keeps the directories. -/
theorem locateFrom_of_keepsDirectories {t u : FileTree} (h : t.KeepsDirectories u)
    {start place : Place} {path : String} (hl : t.locateFrom start path = .ok place) :
    u.locateFrom start path = .ok place := by
  unfold locateFrom at hl ⊢
  cases hn : pathNames path with
  | error fault =>
    rw [hn] at hl
    cases hl
  | ok names =>
    rw [hn] at hl
    exact walk_of_keepsDirectories h hl

/-! ### Trees with more entries -/

/-- Another tree has every entry of this one. -/
def Extends (t u : FileTree) : Prop := ∀ place, (t.get? place).isSome → u.get? place = t.get? place

theorem Extends.refl (t : FileTree) : t.Extends t := fun _ _ => rfl

theorem Extends.trans {t u v : FileTree} (htu : t.Extends u) (huv : u.Extends v) :
    t.Extends v := by
  intro place h
  have hu := htu place h
  exact (huv place (hu ▸ h)).trans hu

theorem Extends.keepsDirectories {t u : FileTree} (h : t.Extends u) : t.KeepsDirectories u := by
  intro place hp
  rw [h place (by rw [hp]; rfl), hp]

/-- Making a directory puts one where nothing stands, or finds one. -/
theorem makeDirectory_cases {t u : FileTree} {names : List String}
    (h : t.makeDirectory names = .ok u) : ∃ place, t.walk [] names = .ok place ∧
      (t.get? place = none ∧ u = t.set place (some .directory) ∨
        t.get? place = some .directory ∧ u = t) := by
  unfold makeDirectory at h
  split at h
  · cases h
  · next place hplace =>
    split at h
    · next hnone =>
      cases h
      exact ⟨place, hplace, .inl ⟨hnone, rfl⟩⟩
    · next hdirectory =>
      cases h
      exact ⟨place, hplace, .inr ⟨hdirectory, rfl⟩⟩
    · cases h

theorem Extends.of_makeDirectory {t u : FileTree} {names : List String}
    (h : t.makeDirectory names = .ok u) : t.Extends u := by
  obtain ⟨place, -, ⟨hnone, rfl⟩ | ⟨-, rfl⟩⟩ := makeDirectory_cases h
  · intro p hp
    rw [get?_set (by rw [hnone]; nofun), if_neg (by rintro rfl; simp [hnone] at hp)]
  · exact .refl u

theorem Extends.attempt {t u : FileTree} {outcome : Except WriteFault FileTree}
    (h : t.Extends u) (houtcome : ∀ v, outcome = .ok v → u.Extends v) :
    t.Extends (u.attempt outcome).2 := by
  cases outcome with
  | ok v => exact h.trans (houtcome v rfl)
  | error fault => exact h

/-- Making directories takes nothing away, also where it fails. -/
theorem Extends.of_makeWay (t : FileTree) (names : List String) :
    t.Extends (t.makeWay names).2 := by
  induction names with
  | nil => exact .refl t
  | cons name front ih =>
    rw [makeWay]
    split
    · rcases hfront : t.makeWay front with ⟨outcome, u⟩
      rw [hfront] at ih
      cases outcome with
      | error fault => exact ih
      | ok _ => exact ih.attempt fun v => .of_makeDirectory
    · exact (Extends.refl t).attempt fun v => .of_makeDirectory

theorem Extends.of_makeDirectories (t : FileTree) (path : String) :
    t.Extends (t.makeDirectories path).2 := by
  unfold makeDirectories
  split
  · exact .refl t
  · split
    · exact .refl t
    · exact .of_makeWay t _

/-! ### Writing and reading -/

/-- All that putting an entry can do: after making directories it stops at a fault, or the entry
takes the place that the path leads to, where no directory stands. -/
theorem put_cases {t u : FileTree} {path : String} {entry : FileEntry}
    {outcome : Except WriteFault Unit} (h : t.put path entry = (outcome, u)) :
    (∃ fault, outcome = .error fault ∧ t.Extends u) ∨
      outcome = .ok () ∧ ∃ v place, t.Extends v ∧ v.locateFrom [] path = .ok place ∧
        v.get? place ≠ some .directory ∧ u = v.set place (some entry) := by
  have hextends := Extends.of_makeDirectories t (directoryOf path)
  unfold put at h
  rcases hway : t.makeDirectories (directoryOf path) with ⟨result, v⟩
  rw [hway] at h hextends
  cases result with
  | error fault =>
    cases h
    exact .inl ⟨fault, rfl, hextends⟩
  | ok _ =>
    simp only [Change.andThen, create] at h
    split at h
    · cases h
      exact .inl ⟨_, rfl, hextends⟩
    · next place hplace =>
      split at h
      · cases h
        exact .inl ⟨_, rfl, hextends⟩
      · next hfree =>
        cases h
        exact .inr ⟨rfl, v, place, hextends, hplace, hfree, rfl⟩

theorem lookup_eq_ok_iff {t : FileTree} {path : String} {entry : FileEntry} :
    t.lookup path = .ok entry ↔
      ∃ place, t.locateFrom [] path = .ok place ∧ t.get? place = some entry := by
  unfold lookup lookupFrom
  cases t.locateFrom [] path with
  | error fault => simp [bind, Except.bind]
  | ok place => cases hget : t.get? place <;> simp [bind, Except.bind, hget]

theorem read?_eq_some_iff {t : FileTree} {path : String} {bytes : Bytes} :
    t.read? path = some bytes ↔ t.lookup path = .ok (.file bytes) := by
  unfold read?
  cases t.lookup path with
  | error fault => simp
  | ok entry => cases entry <;> simp

/-- An entry that was put at a path is found there. -/
theorem lookup_of_put {t u : FileTree} {path : String} {entry : FileEntry}
    (h : t.put path entry = (.ok (), u)) : u.lookup path = .ok entry := by
  rcases put_cases h with ⟨fault, hfault, -⟩ | ⟨-, v, place, -, hplace, hfree, rfl⟩
  · cases hfault
  · refine lookup_eq_ok_iff.mpr ⟨place, locateFrom_of_keepsDirectories (.set hfree) hplace, ?_⟩
    rw [get?_set hfree, if_pos rfl]

/-- A file that was written can be read. -/
theorem read?_of_write {t u : FileTree} {path : String} {bytes : Bytes}
    (h : t.write path bytes = (.ok (), u)) : u.read? path = some bytes :=
  read?_eq_some_iff.mpr (lookup_of_put h)

end FileTree

end ShieldedWallet
