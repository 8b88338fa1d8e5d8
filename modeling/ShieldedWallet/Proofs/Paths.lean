/-
The names in a path.

The names in a path are what stands between its slashes, and the last of them is
that of the place it leads to.

* `splitOn_slash` — the names in a path as lists of characters;
* `EndsIn` — a path ends in a name, and keeps it below a root;
* `EndsIn.getLast?_of_locateFrom` — the place has the name;
* `Apart` — paths that never lead to one place, as those that end in different
  names;
* `FileTree.read?_of_write_apart` — writing at a path leaves the files apart from
  it as they are.

Design notes: a path without a slash is its own only name; `EndsIn` is about
paths in directories only.
-/
import Mathlib.Data.String.Basic
import ShieldedWallet.Proofs.Trees

namespace ShieldedWallet

/-! ### Names in a path -/

open String in
theorem splitOnAux_slash (l m r : List Char) (acc : List String) :
    splitOnAux (ofList (l ++ m ++ r)) "/" ⟨utf8Len l⟩ ⟨utf8Len l + utf8Len m⟩ 0 acc =
      acc.reverse ++ (List.splitOnPPrepend (· == '/') r m.reverse).map ofList := by
  -- `l` is behind the reader, `m` is the name so far, and `r` is still to be read
  induction r generalizing l m acc with
  | nil =>
    have hend : (⟨utf8Len l + utf8Len m⟩ : Pos.Raw).atEnd (ofList (l ++ m ++ [])) := by
      rw [← utf8Len_append, atEnd_of_valid]
    rw [splitOnAux, if_pos hend, extract_of_valid]
    simp
  | cons c r ih =>
    have hend : ¬ (⟨utf8Len l + utf8Len m⟩ : Pos.Raw).atEnd (ofList (l ++ m ++ c :: r)) := by
      rw [← utf8Len_append, atEnd_of_valid]
      exact List.cons_ne_nil c r
    have hget : (⟨utf8Len l + utf8Len m⟩ : Pos.Raw).get (ofList (l ++ m ++ c :: r)) = c := by
      rw [← utf8Len_append, get_of_valid, List.headD_cons]
    have hnext : (⟨utf8Len l + utf8Len m⟩ : Pos.Raw).next (ofList (l ++ m ++ c :: r)) =
        ⟨utf8Len l + utf8Len m + c.utf8Size⟩ := by
      rw [← utf8Len_append, next_of_valid]
    have hslash : (0 : Pos.Raw).get "/" = '/' := rfl
    have hsize : (0 : Pos.Raw).next "/" = ⟨1⟩ := rfl
    have hslashEnd : (⟨1⟩ : Pos.Raw).atEnd "/" := rfl
    rw [splitOnAux, if_neg hend, hget, hslash, List.splitOnPPrepend_cons_eq_if]
    by_cases hc : c = '/'
    · subst hc
      have hback : (⟨utf8Len l + utf8Len m + '/'.utf8Size⟩ : Pos.Raw).unoffsetBy ⟨1⟩ =
          ⟨utf8Len l + utf8Len m⟩ := rfl
      have hrest := ih (l ++ m ++ ['/']) [] (ofList m :: acc)
      simp only [utf8Len_append, utf8Len_cons, utf8Len_nil, Nat.zero_add, Nat.add_zero,
        List.append_nil] at hrest
      simp only [beq_self_eq_true, if_true, hnext, hsize, hslashEnd, hback, extract_of_valid]
      simpa using hrest
    · have hc' : ¬ (c == '/') = true := by simpa using hc
      have hstay : (⟨utf8Len l + utf8Len m⟩ : Pos.Raw).unoffsetBy 0 = ⟨utf8Len l + utf8Len m⟩ := rfl
      have hrest := ih l (m ++ [c]) acc
      rw [utf8Len_append, utf8Len_cons] at hrest
      rw [if_neg hc', if_neg hc', hstay, hnext]
      simpa [Nat.add_assoc] using hrest

/-- The text between slashes, as characters. -/
theorem splitOn_slash (path : String) :
    path.splitOn "/" = (path.toList.splitOn '/').map String.ofList := by
  have h := splitOnAux_slash [] [] path.toList []
  simpa [String.splitOn, List.splitOn] using h

theorem pathNames_eq {path : String} (hne : path ≠ "") (hle : path.utf8ByteSize ≤ pathLimit) :
    pathNames path = .ok ((path.toList.splitOn '/').map String.ofList) := by
  rw [pathNames, if_neg hne, if_neg (Nat.not_lt.mpr hle), splitOn_slash]

theorem eq_splitOn_of_pathNames {path : String} {names : List String}
    (h : pathNames path = .ok names) :
    names = (path.toList.splitOn '/').map String.ofList := by
  unfold pathNames at h
  split at h
  · cases h
  · split at h
    · cases h
    · rw [← Except.ok.inj h, splitOn_slash]

theorem splitOn_append_slash (front : List Char) {name : List Char} (h : '/' ∉ name) :
    (front ++ '/' :: name).splitOn '/' = front.splitOn '/' ++ [name] := by
  have hname : ∀ c ∈ name, (c == '/') = false := by
    intro c hc
    rw [beq_eq_false_iff_ne]
    rintro rfl
    exact h hc
  rw [List.splitOn, List.splitOnP_append_cons (p := (· == '/')) front name rfl,
    List.splitOnP_eq_singleton hname, List.splitOn]

/-- A path ends in a name, behind a slash. -/
def EndsIn (path : String) (name : List Char) : Prop :=
  '/' ∉ name ∧ ∃ front, path.toList = front ++ '/' :: name

theorem EndsIn.splitOn {path : String} {name : List Char} (h : EndsIn path name) :
    ∃ names, path.toList.splitOn '/' = names ++ [name] := by
  obtain ⟨hslash, front, hpath⟩ := h
  rw [hpath, splitOn_append_slash front hslash]
  exact ⟨_, rfl⟩

theorem EndsIn.unique {path : String} {name name' : List Char} (h : EndsIn path name)
    (h' : EndsIn path name') : name = name' := by
  obtain ⟨names, hnames⟩ := h.splitOn
  obtain ⟨names', hnames'⟩ := h'.splitOn
  exact (List.append_singleton_inj.mp (hnames.symm.trans hnames')).2

/-- A path keeps its last name below any root. -/
theorem EndsIn.below {path : String} {name : List Char} (h : EndsIn path name) (root : String) :
    EndsIn (below root path) name := by
  obtain ⟨hslash, front, hpath⟩ := h
  refine ⟨hslash, ?_⟩
  unfold ShieldedWallet.below
  split
  · exact ⟨front, hpath⟩
  · split
    · exact ⟨root.toList ++ front, by rw [String.toList_append, hpath, List.append_assoc]⟩
    · exact ⟨(root ++ "/").toList ++ front, by rw [String.toList_append, hpath, List.append_assoc]⟩

theorem Place.getLast?_of_step {place target : Place} {name : String}
    (hname : name ≠ "" ∧ name ≠ "." ∧ name ≠ "..") (h : place.step name = .ok target) :
    target.getLast? = some name := by
  unfold step at h
  split at h
  · cases h
  · simp only [hname.1, hname.2.1, hname.2.2, or_self, if_false] at h
    cases h
    exact List.getLast?_concat

/-- A path leads to a place of the name that it ends in. -/
theorem EndsIn.getLast?_of_locateFrom {path : String} {name : List Char} (h : EndsIn path name)
    (hname : String.ofList name ≠ "" ∧ String.ofList name ≠ "." ∧ String.ofList name ≠ "..")
    {t : FileTree} {start place : Place} (hl : t.locateFrom start path = .ok place) :
    place.getLast? = some (String.ofList name) := by
  obtain ⟨front, hfront⟩ := h.splitOn
  unfold FileTree.locateFrom at hl
  cases hn : pathNames path with
  | error fault =>
    rw [hn] at hl
    cases hl
  | ok names =>
    rw [hn, eq_splitOn_of_pathNames hn, hfront, List.map_append] at hl
    obtain ⟨parent, -, -, hstep⟩ := FileTree.walk_concat hl
    exact Place.getLast?_of_step hname hstep

/-! ### Paths apart -/

/-- Two paths never lead to one place, from wherever and in whichever trees. -/
def Apart (path other : String) : Prop :=
  ∀ ⦃t u : FileTree⦄ ⦃start start' place place' : Place⦄, t.locateFrom start path = .ok place →
    u.locateFrom start' other = .ok place' → place ≠ place'

theorem Apart.symm {path other : String} (h : Apart path other) : Apart other path :=
  fun _ _ _ _ _ _ hl hl' => (h hl' hl).symm

/-- A long name is no name that a path stays at or goes back by. -/
theorem ofList_ne_of_length {name : List Char} (h : 2 < name.length) :
    String.ofList name ≠ "" ∧ String.ofList name ≠ "." ∧ String.ofList name ≠ ".." := by
  have hne {text : String} (htext : text.toList.length ≤ 2) : String.ofList name ≠ text := by
    rintro rfl
    rw [String.toList_ofList] at htext
    exact absurd h (Nat.not_lt.mpr htext)
  exact ⟨hne (by decide), hne (by decide), hne (by decide)⟩

theorem EndsIn.apart {path other : String} {name name' : List Char} (h : EndsIn path name)
    (h' : EndsIn other name') (hlong : 2 < name.length) (hlong' : 2 < name'.length)
    (hne : name ≠ name') : Apart path other := by
  rintro t u start start' place _ hl hl' rfl
  have hlast := h.getLast?_of_locateFrom (ofList_ne_of_length hlong) hl
  rw [h'.getLast?_of_locateFrom (ofList_ne_of_length hlong') hl', Option.some.injEq,
    String.ofList_inj] at hlast
  exact hne hlast.symm

/-- Writing at a path leaves the files at paths apart from it as they are, also where it fails. -/
theorem FileTree.read?_of_write_apart {t u : FileTree} {path other : String} {bytes found : Bytes}
    {outcome : Except WriteFault Unit} (hapart : Apart path other)
    (hwrite : t.write path bytes = (outcome, u)) (hread : t.read? other = some found) :
    u.read? other = some found := by
  obtain ⟨place, hl, hget⟩ := lookup_eq_ok_iff.mp (read?_eq_some_iff.mp hread)
  refine read?_eq_some_iff.mpr (lookup_eq_ok_iff.mpr
    ⟨place, locateFrom_of_keepsDirectories (Grows.of_write hwrite).directories hl, ?_⟩)
  rcases put_cases hwrite with ⟨-, -, hextends⟩ | ⟨-, v, target, hextends, htarget, hfree, rfl⟩
  · rw [hextends place (by rw [hget]; rfl), hget]
  · rw [get?_set hfree, if_neg (hapart htarget hl).symm, hextends place (by rw [hget]; rfl), hget]

theorem FileTree.contains_eq {t : FileTree} {path : String} {names : List String}
    (h : pathNames path = .ok names) :
    t.contains path = match t.walk [] names with
      | .ok place => (t.get? place).isSome
      | .error _ => false := by
  unfold contains lookup lookupFrom locateFrom
  rw [h, ite_self]
  simp only [bind, Except.bind]
  cases t.walk [] names with
  | error fault => rfl
  | ok place => cases hget : t.get? place <;> simp [hget]

end ShieldedWallet
