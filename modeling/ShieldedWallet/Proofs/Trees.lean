/-
Trees that grow.

Writing only adds to a tree, so what a path leads to stays there.  A write that
fails would fail again: the directories that it made are found by the next one,
which stops where it stopped.

* `FileTree.Grows` — another tree has an entry wherever one has;
* `FileTree.Grows.of_write` — as after a write, also where it fails;
* `FileTree.Grows.contains` — paths still lead somewhere;
* `FileTree.write_again` — what cannot be written cannot be written again.

Design notes: a write that fails again may do so with another fault, since
directories that were missing are there by then.
-/
import ShieldedWallet.Files.Tree

namespace ShieldedWallet

/-! ### Trees that grow -/

namespace FileTree

/-- Another tree has an entry wherever one has, and keeps its directories. -/
structure Grows (t u : FileTree) : Prop where
  directories : t.KeepsDirectories u
  entries : ∀ place, (t.get? place).isSome → (u.get? place).isSome

theorem Grows.refl (t : FileTree) : t.Grows t := ⟨fun _ h => h, fun _ h => h⟩

theorem Grows.trans {t u v : FileTree} (htu : t.Grows u) (huv : u.Grows v) : t.Grows v where
  directories place h := huv.directories place (htu.directories place h)
  entries place h := huv.entries place (htu.entries place h)

theorem Grows.set {t : FileTree} {place : Place} {entry : FileEntry}
    (h : t.get? place ≠ some .directory) : t.Grows (t.set place (some entry)) where
  directories := KeepsDirectories.set h
  entries p hp := by
    rw [get?_set h]
    split
    · rfl
    · exact hp

theorem Extends.grows {t u : FileTree} (h : t.Extends u) : t.Grows u where
  directories := h.keepsDirectories
  entries place hp := by rwa [h place hp]

/-- Putting an entry only adds to a tree, also where it fails. -/
theorem Grows.of_put {t u : FileTree} {path : String} {entry : FileEntry}
    {outcome : Except WriteFault Unit} (h : t.put path entry = (outcome, u)) : t.Grows u := by
  rcases put_cases h with ⟨-, -, hextends⟩ | ⟨-, v, place, hextends, -, hfree, rfl⟩
  · exact hextends.grows
  · exact hextends.grows.trans (Grows.set hfree)

theorem Grows.of_write {t u : FileTree} {path : String} {bytes : Bytes}
    {outcome : Except WriteFault Unit} (h : t.write path bytes = (outcome, u)) : t.Grows u :=
  .of_put h

theorem contains_iff {t : FileTree} {path : String} :
    t.contains path ↔ ∃ entry, t.lookup path = .ok entry := by
  unfold contains
  cases t.lookup path <;> simp

/-- What a path leads to still stands there in a tree that has grown. -/
theorem Grows.contains {t u : FileTree} (h : t.Grows u) {path : String} (hp : t.contains path) :
    u.contains path := by
  obtain ⟨entry, hentry⟩ := contains_iff.mp hp
  obtain ⟨place, hl, hget⟩ := lookup_eq_ok_iff.mp hentry
  obtain ⟨entry', hget'⟩ := Option.isSome_iff_exists.mp (h.entries place (by rw [hget]; rfl))
  exact contains_iff.mpr ⟨entry', lookup_eq_ok_iff.mpr
    ⟨place, locateFrom_of_keepsDirectories h.directories hl, hget'⟩⟩

theorem contains_of_write {t u : FileTree} {path : String} {bytes : Bytes}
    (h : t.write path bytes = (.ok (), u)) : u.contains path :=
  contains_iff.mpr ⟨_, lookup_of_put h⟩

theorem contains_of_read? {t : FileTree} {path : String} {bytes : Bytes}
    (h : t.read? path = some bytes) : t.contains path :=
  contains_iff.mpr ⟨_, read?_eq_some_iff.mp h⟩

/-! ### Faults that stay -/

section Again

variable {t u : FileTree} {names : List String} {name : String} {fault : WriteFault}

theorem makeDirectory_of_directory {place : Place} (hplace : t.walk [] names = .ok place)
    (hdirectory : t.get? place = some .directory) : t.makeDirectory names = .ok t := by
  rw [makeDirectory, hplace]
  simp only [hdirectory]

theorem makeDirectory_again (h : t.makeDirectory names = .ok u) :
    u.makeDirectory names = .ok u := by
  have hkeep := (Extends.of_makeDirectory h).keepsDirectories
  obtain ⟨place, hplace, hput⟩ := makeDirectory_cases h
  refine makeDirectory_of_directory (walk_of_keepsDirectories hkeep hplace) ?_
  rcases hput with ⟨hnone, rfl⟩ | ⟨hdirectory, rfl⟩
  · rw [get?_set (by rw [hnone]; nofun), if_pos rfl]
  · exact hdirectory

/-- Where a directory can be made, one stands on the way. -/
theorem makeDirectory_front (h : t.makeDirectory (names ++ [name]) = .ok u) :
    t.makeDirectory names = .ok t := by
  obtain ⟨place, hplace, -⟩ := makeDirectory_cases h
  obtain ⟨parent, hparent, hdirectory, -⟩ := walk_concat hplace
  exact makeDirectory_of_directory hparent hdirectory

theorem makeWay_of_missing
    (h : t.makeDirectory (name :: names).reverse = .error (.path .missing)) :
    t.makeWay (name :: names) = (t.makeWay names).andThen fun u =>
      u.attempt (u.makeDirectory (name :: names).reverse) := by
  rw [makeWay, h]

theorem makeWay_of_ne_missing
    (h : t.makeDirectory (name :: names).reverse ≠ .error (.path .missing)) :
    t.makeWay (name :: names) = t.attempt (t.makeDirectory (name :: names).reverse) := by
  rw [makeWay]
  split
  · next hmissing => exact absurd hmissing h
  · rfl

theorem attempt_eq_ok_iff {outcome : Except WriteFault FileTree} :
    t.attempt outcome = (.ok (), u) ↔ outcome = .ok u := by
  cases outcome <;> simp [attempt]

theorem attempt_eq_error_iff {outcome : Except WriteFault FileTree} :
    t.attempt outcome = (.error fault, u) ↔ outcome = .error fault ∧ u = t := by
  cases outcome <;> simp [attempt, eq_comm]

theorem andThen_eq_ok_iff {c : Change} {next : FileTree → Change} :
    c.andThen next = (.ok (), u) ↔ ∃ v, c = (.ok (), v) ∧ next v = (.ok (), u) := by
  rcases c with ⟨_ | _, v⟩ <;> simp [Change.andThen]

theorem andThen_eq_error_iff {c : Change} {next : FileTree → Change} :
    c.andThen next = (.error fault, u) ↔
      c = (.error fault, u) ∨ ∃ v, c = (.ok (), v) ∧ next v = (.error fault, u) := by
  rcases c with ⟨_ | _, v⟩ <;> simp [Change.andThen]

theorem makeWay_of_ok (h : t.makeDirectory names.reverse = .ok u) :
    t.makeWay names = (.ok (), u) := by
  cases names with
  | nil =>
    obtain rfl : t = u := Except.ok.inj h
    rfl
  | cons name front =>
    rw [makeWay_of_ne_missing (by rw [h]; nofun), h]
    rfl

/-- Directories that were made stand there from then on. -/
theorem makeWay_again_ok (h : t.makeWay names = (.ok (), u)) : u.makeWay names = (.ok (), u) := by
  cases names with
  | nil =>
    cases h
    rfl
  | cons name front =>
    by_cases hmissing : t.makeDirectory (name :: front).reverse = .error (.path .missing)
    · rw [makeWay_of_missing hmissing] at h
      obtain ⟨v, -, hlast⟩ := andThen_eq_ok_iff.mp h
      exact makeWay_of_ok (makeDirectory_again (attempt_eq_ok_iff.mp hlast))
    · rw [makeWay_of_ne_missing hmissing] at h
      exact makeWay_of_ok (makeDirectory_again (attempt_eq_ok_iff.mp h))

/-- No way is made where the last directory cannot be made and those before it are as they are. -/
theorem makeWay_stuck {outcome : Except WriteFault Unit}
    (hlast : t.makeDirectory (name :: names).reverse = .error fault)
    (hfront : t.makeWay names = (outcome, t)) :
    ∃ fault', t.makeWay (name :: names) = (.error fault', t) := by
  by_cases hmissing : t.makeDirectory (name :: names).reverse = .error (.path .missing)
  · rw [makeWay_of_missing hmissing, hfront]
    cases outcome with
    | error fault' => exact ⟨fault', rfl⟩
    | ok _ => exact ⟨fault, attempt_eq_error_iff.mpr ⟨hlast, rfl⟩⟩
  · rw [makeWay_of_ne_missing hmissing]
    exact ⟨fault, attempt_eq_error_iff.mpr ⟨hlast, rfl⟩⟩

theorem makeWay_again (h : t.makeWay names = (.error fault, u)) :
    ∃ fault', u.makeWay names = (.error fault', u) := by
  induction names generalizing fault with
  | nil => cases h
  | cons name front ih =>
    by_cases hmissing : t.makeDirectory (name :: front).reverse = .error (.path .missing)
    · rw [makeWay_of_missing hmissing] at h
      rcases andThen_eq_error_iff.mp h with hfront | ⟨v, hfront, hlast⟩
      · -- the way stops before the last directory, so that one cannot be made either
        obtain ⟨fault', hagain⟩ := ih hfront
        cases hlast : u.makeDirectory (name :: front).reverse with
        | error fault'' => exact makeWay_stuck hlast hagain
        | ok w =>
          rw [List.reverse_cons] at hlast
          rw [makeWay_of_ok (makeDirectory_front hlast)] at hagain
          cases hagain
      · obtain ⟨hlast, rfl⟩ := attempt_eq_error_iff.mp hlast
        exact makeWay_stuck hlast (makeWay_again_ok hfront)
    · have hstay := h
      rw [makeWay_of_ne_missing hmissing] at hstay
      obtain ⟨-, rfl⟩ := attempt_eq_error_iff.mp hstay
      exact ⟨fault, h⟩

/-- What a path says is the same for all trees: that it is too long, or which way is to be made. -/
theorem makeDirectories_eq (path : String) :
    (∃ fault, ∀ t : FileTree, t.makeDirectories path = (.error fault, t)) ∨
      ∃ names, ∀ t : FileTree, t.makeDirectories path = t.makeWay names := by
  unfold makeDirectories
  by_cases hempty : path = ""
  · exact .inr ⟨[], fun t => if_pos hempty⟩
  · cases hnames : pathNames path with
    | error fault => exact .inl ⟨.path fault, fun t => if_neg hempty⟩
    | ok names => exact .inr ⟨names.reverse, fun t => if_neg hempty⟩

theorem makeDirectories_again_ok {path : String} (h : t.makeDirectories path = (.ok (), u)) :
    u.makeDirectories path = (.ok (), u) := by
  rcases makeDirectories_eq path with ⟨fault, heq⟩ | ⟨names, heq⟩
  · rw [heq] at h
    cases h
  · rw [heq] at h ⊢
    exact makeWay_again_ok h

theorem makeDirectories_again {path : String} (h : t.makeDirectories path = (.error fault, u)) :
    ∃ fault', u.makeDirectories path = (.error fault', u) := by
  rcases makeDirectories_eq path with ⟨fault', heq⟩ | ⟨names, heq⟩
  · exact ⟨fault', heq u⟩
  · rw [heq] at h
    simp only [heq]
    exact makeWay_again h

/-- What cannot be put at a path cannot be put there again, and nothing more changes. -/
theorem put_again {path : String} {entry : FileEntry} (h : t.put path entry = (.error fault, u)) :
    ∃ fault', u.put path entry = (.error fault', u) := by
  rcases andThen_eq_error_iff.mp h with hway | ⟨v, hway, hcreate⟩
  · obtain ⟨fault', hagain⟩ := makeDirectories_again hway
    exact ⟨fault', andThen_eq_error_iff.mpr (.inl hagain)⟩
  · obtain ⟨hcreate, rfl⟩ := attempt_eq_error_iff.mp hcreate
    exact ⟨fault, andThen_eq_error_iff.mpr (.inr ⟨u, makeDirectories_again_ok hway,
      attempt_eq_error_iff.mpr ⟨hcreate, rfl⟩⟩)⟩

theorem write_again {path : String} {bytes : Bytes} (h : t.write path bytes = (.error fault, u)) :
    ∃ fault', u.write path bytes = (.error fault', u) :=
  put_again h

end Again

end FileTree

end ShieldedWallet
