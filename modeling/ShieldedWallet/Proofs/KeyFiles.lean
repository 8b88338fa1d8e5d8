/-
Key files are complete, of one shape, and below one root.

A resolution that succeeds gives three files that exist, all below the local
directory or all below the scratch directory.  Downloads only add files, so what
a failed resolution leaves behind is there for the next one.  A file that was
fetched holds what the network answered, and those that were there before hold
what they held.

* `KeyStore.Supplied` — what a resolution by downloads does;
* `KeyStore.resolve_grows` — a resolution only adds files;
* `KeyStore.resolve_error_of_remote` — with a remote root, only downloads fail;
* `KeyStore.resolve_again` — what was found once is found without fetching;
* `KeyStore.resolve_contents` — what the files hold;
* `KeyStore.resolve_exact` — what is found, what is fetched, and what is missing.

Design notes: two roots may lead to one place, and a file that is written may
need a directory whose name is that of another file.  So of the files that are
missing at first, not all have to be fetched.
-/
import ShieldedWallet.Proofs.CircuitNames
import ShieldedWallet.Proofs.Downloads
import ShieldedWallet.Proofs.Outcome

namespace ShieldedWallet

/-! ### Files that are missing -/

namespace KeyFiles

/-- All three files exist. -/
def Complete (k : KeyFiles) (files : FileTree) : Prop := ∀ path ∈ k.toList, files.contains path

theorem firstMissing?_eq_none_iff {k : KeyFiles} {files : FileTree} :
    k.firstMissing? files = none ↔ k.Complete files := by
  simp [firstMissing?, Complete, List.find?_eq_none]

/-- A file does not exist, and those before it do. -/
def FirstMissing (k : KeyFiles) (files : FileTree) (path : String) : Prop :=
  ∃ before after, k.toList = before ++ path :: after ∧
    (∀ p ∈ before, files.contains p) ∧ ¬ files.contains path

theorem firstMissing?_eq_some_iff {k : KeyFiles} {files : FileTree} {path : String} :
    k.firstMissing? files = some path ↔ k.FirstMissing files path := by
  rw [firstMissing?, List.find?_eq_some_iff_append]
  constructor
  · rintro ⟨hp, before, after, hsplit, hbefore⟩
    exact ⟨before, after, hsplit, by simpa using hbefore, by simpa using hp⟩
  · rintro ⟨before, after, hsplit, hbefore, hp⟩
    exact ⟨by simpa using hp, before, after, hsplit, by simpa using hbefore⟩

theorem toList_under (k : KeyFiles) (root : String) :
    (k.under root).toList = k.toList.map (below root) := rfl

end KeyFiles

/-! ### Resolution -/

namespace RemoteKeys

/-- The address of a file. -/
def address (remote : RemoteKeys) (path : String) : String := remote.root ++ "/" ++ path

theorem address_ne (remote : RemoteKeys) {path other : String} (h : path ≠ other) :
    remote.address path ≠ remote.address other := by
  intro heq
  have htexts : (remote.root ++ "/").toList ++ path.toList =
      (remote.root ++ "/").toList ++ other.toList := by
    rw [← String.toList_append, ← String.toList_append]
    exact congrArg String.toList heq
  exact h (String.toList_inj.mp (List.append_cancel_left htexts))

/-- The addresses of the files of a circuit that are not in the scratch directory. -/
def wanted (remote : RemoteKeys) (files : FileTree) (relative : KeyFiles) : List String :=
  (relative.toList.filter fun path => !files.contains (below remote.scratch path)).map
    remote.address

/-- The files of a circuit, each as its address and its path in the scratch directory. -/
def targets (remote : RemoteKeys) (relative : KeyFiles) : List (String × String) :=
  relative.toList.map fun path => (remote.address path, below remote.scratch path)

theorem wanted_eq (remote : RemoteKeys) (files : FileTree) (relative : KeyFiles) :
    remote.wanted files relative =
      ((remote.targets relative).filter fun target => !files.contains target.2).map Prod.fst := by
  rw [wanted, targets, List.filter_map, List.map_map]
  rfl

theorem zip_toList (remote : RemoteKeys) (relative : KeyFiles) :
    (relative.toList.map fun path => remote.root ++ "/" ++ path).zip
      (relative.under remote.scratch).toList = remote.targets relative := rfl

theorem forall_targets_iff {remote : RemoteKeys} {files : FileTree} {relative : KeyFiles} :
    (∀ target ∈ remote.targets relative, files.contains target.2) ↔
      (relative.under remote.scratch).Complete files := by
  rw [targets, List.forall_mem_map, KeyFiles.Complete, KeyFiles.toList_under, List.forall_mem_map]

/-- The targets are apart from each other, and have addresses of their own. -/
theorem pairwise_targets (remote : RemoteKeys) {circuit : String}
    (hcircuit : '/' ∉ circuit.toList) :
    (remote.targets (KeyFiles.relative circuit)).Pairwise fun target other =>
      target.1 ≠ other.1 ∧ Apart target.2 other.2 := by
  refine List.pairwise_map.mpr ((KeyFiles.apart_toList hcircuit remote.scratch).imp ?_)
  rintro path other ⟨hne, hapart⟩
  exact ⟨remote.address_ne hne, hapart⟩

end RemoteKeys

namespace KeyStore

/-- All three files of a circuit exist below the local directory. -/
def Stocked (s : KeyStore) (files : FileTree) (relative : KeyFiles) : Prop :=
  ∃ dir, s.localDir = some dir ∧ (relative.under dir).Complete files

theorem local?_eq_some_iff {s : KeyStore} {files : FileTree} {relative found : KeyFiles} :
    s.local? files relative = some found ↔
      ∃ dir, s.localDir = some dir ∧ (relative.under dir).Complete files ∧
        found = relative.under dir := by
  unfold local?
  cases s.localDir with
  | none => simp
  | some dir =>
    simp only [Option.ite_none_right_eq_some, Option.isNone_iff_eq_none,
      KeyFiles.firstMissing?_eq_none_iff, Option.some.injEq]
    constructor
    · rintro ⟨hall, rfl⟩
      exact ⟨dir, rfl, hall, rfl⟩
    · rintro ⟨_, rfl, hall, rfl⟩
      exact ⟨hall, rfl⟩

theorem local?_eq_none_iff {s : KeyStore} {files : FileTree} {relative : KeyFiles} :
    s.local? files relative = none ↔ ¬ s.Stocked files relative := by
  rw [Option.eq_none_iff_forall_ne_some, Stocked]
  constructor
  · rintro h ⟨dir, hdir, hall⟩
    exact h _ (local?_eq_some_iff.mpr ⟨dir, hdir, hall, rfl⟩)
  · intro h found hfound
    obtain ⟨dir, hdir, hall, -⟩ := local?_eq_some_iff.mp hfound
    exact h ⟨dir, hdir, hall⟩

/-- The file that is named as missing: the program if there is no local directory, else the first
of the files that is not below it. -/
theorem missingLocal_spec {s : KeyStore} {files : FileTree} {relative : KeyFiles}
    (h : ¬ s.Stocked files relative) :
    (s.localDir = none → s.missingLocal files relative = relative.program) ∧
      ∀ dir, s.localDir = some dir →
        (relative.under dir).FirstMissing files (s.missingLocal files relative) := by
  unfold missingLocal
  constructor
  · intro hnone
    rw [hnone]
  · intro dir hdir
    have hmissing : (relative.under dir).firstMissing? files ≠ none := fun hnone =>
      h ⟨dir, hdir, KeyFiles.firstMissing?_eq_none_iff.mp hnone⟩
    obtain ⟨path, hpath⟩ := Option.ne_none_iff_exists'.mp hmissing
    rw [hdir]
    dsimp only
    rw [hpath, Option.getD_some]
    exact KeyFiles.firstMissing?_eq_some_iff.mp hpath

variable {s : KeyStore} {network : Network} {files : FileTree} {inputs outputs : Nat}

/-- What a resolution by downloads does: it finds all files in the scratch directory, or says which
download failed.  Those fetched hold what their addresses answer, and other files stay as they
are. -/
structure Supplied (network : Network) (files : FileTree) (circuit : String) (remote : RemoteKeys)
    (r : Resolution) : Prop where
  grows : files.Grows r.files
  fetched_sublist : r.fetched.Sublist (remote.wanted files (KeyFiles.relative circuit))
  found : ∀ k, r.result = .ok k →
    k = (KeyFiles.relative circuit).under remote.scratch ∧ k.Complete r.files
  fault : ∀ e, r.result = .error e → ∃ path ∈ (KeyFiles.relative circuit).toList,
    remote.address path ∈ r.fetched ∧ ∃ before, files.Grows before ∧
      Refused network before r.files (remote.address path) (below remote.scratch path) e
  kept : ∀ path bytes, (∀ own ∈ (KeyFiles.relative circuit).toList,
      below remote.scratch own = path ∨ Apart (below remote.scratch own) path) →
    files.read? path = some bytes → r.files.read? path = some bytes
  stored : ∀ path ∈ (KeyFiles.relative circuit).toList, remote.address path ∈ r.fetched →
    Stored network r.files (remote.address path) (below remote.scratch path) ∨
      ∃ e before, r.result = .error e ∧
        Refused network before r.files (remote.address path) (below remote.scratch path) e

/-- The outcome of a resolution by downloads is that of the downloads. -/
theorem resolveRemote_eq (network : Network) (files : FileTree) (circuit : String)
    (remote : RemoteKeys) :
    resolveRemote network files circuit remote =
      let run := downloadMissing network files (remote.targets (KeyFiles.relative circuit))
      ⟨run.1.map fun _ => (KeyFiles.relative circuit).under remote.scratch, run.2.1, run.2.2⟩ := by
  have hrun := downloaded network files (remote.targets (KeyFiles.relative circuit))
  simp only [resolveRemote, RemoteKeys.zip_toList]
  rcases hdownloads : downloadMissing network files (remote.targets (KeyFiles.relative circuit))
    with ⟨_ | _, files', fetched⟩
  · rfl
  · -- after downloads that succeed, no file is missing
    rw [hdownloads] at hrun
    have hall := RemoteKeys.forall_targets_iff.mp (hrun.complete rfl)
    simp only [KeyFiles.firstMissing?_eq_none_iff.mpr hall, Except.map]

theorem supplied (network : Network) (files : FileTree) {circuit : String}
    (hcircuit : '/' ∉ circuit.toList) (remote : RemoteKeys) :
    Supplied network files circuit remote (resolveRemote network files circuit remote) := by
  have hrun := downloaded network files (remote.targets (KeyFiles.relative circuit))
  rw [resolveRemote_eq]
  generalize downloadMissing network files (remote.targets (KeyFiles.relative circuit)) = run
    at hrun
  refine ⟨hrun.grows, ?_, fun k hk => ?_, fun e he => ?_, fun path bytes hpath => ?_,
    fun path hpath hfetched => ?_⟩
  · rw [RemoteKeys.wanted_eq]
    exact hrun.fetched_sublist
  · obtain ⟨_, hok, rfl⟩ := Except.map_eq_ok_iff.mp hk
    exact ⟨rfl, RemoteKeys.forall_targets_iff.mp (hrun.complete hok)⟩
  · obtain ⟨target, hmem, hfetched, hrefused⟩ := hrun.fault e (Except.map_eq_error_iff.mp he)
    obtain ⟨path, hpath, rfl⟩ := List.mem_map.mp hmem
    exact ⟨path, hpath, hfetched, hrefused⟩
  · exact hrun.kept path bytes (List.forall_mem_map.mpr hpath)
  · rcases hrun.stored (remote.pairwise_targets hcircuit) _ (List.mem_map_of_mem hpath) hfetched
      with hstored | ⟨e, before, he, hrefused⟩
    · exact .inl hstored
    · exact .inr ⟨e, before, Except.map_eq_error_iff.mpr he, hrefused⟩

/-- Downloads are not needed if all files are in the scratch directory. -/
theorem resolveRemote_of_complete {circuit : String} {remote : RemoteKeys}
    (h : ((KeyFiles.relative circuit).under remote.scratch).Complete files) (network : Network) :
    resolveRemote network files circuit remote =
      ⟨.ok ((KeyFiles.relative circuit).under remote.scratch), files, []⟩ := by
  have hthere := RemoteKeys.forall_targets_iff.mpr h
  rw [resolveRemote_eq, downloadMissing_of_contains network hthere]
  rfl

/-- All that a resolution can do: take the files from the local directory, resolve by downloads, or
name a file that is missing. -/
theorem resolve_cases (s : KeyStore) (network : Network) (files : FileTree)
    (inputs outputs : Nat) :
    (∃ dir, s.localDir = some dir ∧
      ((KeyFiles.ofShape inputs outputs).under dir).Complete files ∧
      s.resolve network files inputs outputs =
        ⟨.ok ((KeyFiles.ofShape inputs outputs).under dir), files, []⟩) ∨
    ¬ s.Stocked files (KeyFiles.ofShape inputs outputs) ∧
      ((∃ remote, s.remote = some remote ∧ s.resolve network files inputs outputs =
          resolveRemote network files (circuitName inputs outputs) remote) ∨
        s.remote = none ∧ s.resolve network files inputs outputs =
          ⟨.error (.missing (circuitName inputs outputs)
            (s.missingLocal files (KeyFiles.ofShape inputs outputs))), files, []⟩) := by
  cases hlocal : s.local? files (KeyFiles.ofShape inputs outputs) with
  | some found =>
    obtain ⟨dir, hdir, hall, rfl⟩ := local?_eq_some_iff.mp hlocal
    exact .inl ⟨dir, hdir, hall, by rw [resolve, hlocal]⟩
  | none =>
    refine .inr ⟨local?_eq_none_iff.mp hlocal, ?_⟩
    cases hremote : s.remote with
    | some remote => exact .inl ⟨remote, rfl, by rw [resolve, hlocal, hremote]⟩
    | none => exact .inr ⟨rfl, by rw [resolve, hlocal, hremote]⟩

/-- With a remote root, what is not taken from the local directory is resolved by downloads. -/
theorem resolve_of_remote {remote : RemoteKeys} (hremote : s.remote = some remote)
    (network : Network) (files : FileTree) (inputs outputs : Nat) :
    (∃ found, s.resolve network files inputs outputs = ⟨.ok found, files, []⟩) ∨
      s.resolve network files inputs outputs =
        resolveRemote network files (circuitName inputs outputs) remote := by
  rcases resolve_cases s network files inputs outputs with
    ⟨dir, -, -, hr⟩ | ⟨-, ⟨remote', hremote', hr⟩ | ⟨hnone, -⟩⟩
  · exact .inl ⟨_, hr⟩
  · obtain rfl : remote = remote' := Option.some.inj (hremote.symm.trans hremote')
    exact .inr hr
  · rw [hremote] at hnone
    cases hnone

/-- A resolution only adds files, also where it fails. -/
theorem resolve_grows (s : KeyStore) (network : Network) (files : FileTree)
    (inputs outputs : Nat) : files.Grows (s.resolve network files inputs outputs).files := by
  rcases resolve_cases s network files inputs outputs with
    ⟨dir, -, -, hr⟩ | ⟨-, ⟨remote, -, hr⟩ | ⟨-, hr⟩⟩
  · rw [hr]
    exact .refl files
  · rw [hr]
    exact (supplied network files (slash_notMem_circuitName _ _) remote).grows
  · rw [hr]
    exact .refl files

/-- With a remote root, nothing but the download of a file of the circuit can fail. -/
theorem resolve_error_of_remote {remote : RemoteKeys} {e : KeyError}
    (hremote : s.remote = some remote)
    (h : (s.resolve network files inputs outputs).result = .error e) :
    ∃ path ∈ (KeyFiles.ofShape inputs outputs).toList,
      remote.address path ∈ (s.resolve network files inputs outputs).fetched ∧
        ∃ before, files.Grows before ∧
          Refused network before (s.resolve network files inputs outputs).files
            (remote.address path) (below remote.scratch path) e := by
  rcases resolve_of_remote hremote network files inputs outputs with ⟨found, hr⟩ | hr
  · rw [hr] at h
    cases h
  · rw [hr] at h ⊢
    exact (supplied network files (slash_notMem_circuitName _ _) remote).fault e h

/-- What was found once is found again, whatever the network answers, and nothing is fetched. -/
theorem resolve_again {found : KeyFiles}
    (h : (s.resolve network files inputs outputs).result = .ok found) (network' : Network) :
    ∃ found', s.resolve network' (s.resolve network files inputs outputs).files inputs outputs =
      ⟨.ok found', (s.resolve network files inputs outputs).files, []⟩ := by
  rcases resolve_cases s network files inputs outputs with
    ⟨dir, hdir, hall, hfirst⟩ | ⟨-, ⟨remote, hremote, hfirst⟩ | ⟨-, hfirst⟩⟩
  · rw [hfirst]
    rcases resolve_cases s network' files inputs outputs with ⟨dir', -, -, hr⟩ | ⟨hlocal, -⟩
    · exact ⟨_, hr⟩
    · exact absurd ⟨dir, hdir, hall⟩ hlocal
  · rw [hfirst] at h ⊢
    have hsupplied := supplied network files (slash_notMem_circuitName inputs outputs) remote
    obtain ⟨rfl, hall⟩ := hsupplied.found found h
    rcases resolve_of_remote hremote network' _ inputs outputs with ⟨found', hr⟩ | hr
    · exact ⟨found', hr⟩
    · rw [hr]
      exact ⟨_, resolveRemote_of_complete hall network'⟩
  · rw [hfirst] at h
    cases h

/-- What a resolution fetched stands in the scratch directory, but for the file it failed with. -/
theorem resolve_stored {remote : RemoteKeys} (hremote : s.remote = some remote) {path : String}
    (hpath : path ∈ (KeyFiles.ofShape inputs outputs).toList)
    (hfetched : remote.address path ∈ (s.resolve network files inputs outputs).fetched) :
    Stored network (s.resolve network files inputs outputs).files (remote.address path)
        (below remote.scratch path) ∨
      ∃ e before, (s.resolve network files inputs outputs).result = .error e ∧
        Refused network before (s.resolve network files inputs outputs).files
          (remote.address path) (below remote.scratch path) e := by
  rcases resolve_of_remote hremote network files inputs outputs with ⟨found, hr⟩ | hr
  · rw [hr] at hfetched
    exact absurd hfetched List.not_mem_nil
  · rw [hr] at hfetched ⊢
    exact (supplied network files (slash_notMem_circuitName _ _) remote).stored path hpath hfetched

/-- A file stays as it is if each file of the circuit is the same path or apart from it. -/
theorem resolve_kept {path : String} {bytes : Bytes}
    (hpath : ∀ remote, s.remote = some remote → ∀ own ∈ (KeyFiles.ofShape inputs outputs).toList,
      below remote.scratch own = path ∨ Apart (below remote.scratch own) path)
    (hread : files.read? path = some bytes) :
    (s.resolve network files inputs outputs).files.read? path = some bytes := by
  rcases resolve_cases s network files inputs outputs with
    ⟨dir, -, -, hr⟩ | ⟨-, ⟨remote, hremote, hr⟩ | ⟨-, hr⟩⟩
  · rw [hr]
    exact hread
  · rw [hr]
    exact (supplied network files (slash_notMem_circuitName _ _) remote).kept path bytes
      (hpath remote hremote) hread
  · rw [hr]
    exact hread

/-- What files hold after a resolution, over all stores, networks and trees.  What was fetched
stands in the scratch directory as the network answered, unless the resolution failed with it.  A
file of the circuit that could be read there before holds the same, and so does every file of
another shape, below whichever root. -/
theorem resolve_contents (s : KeyStore) (network : Network) (files : FileTree)
    (inputs outputs : Nat) :
    let relative := KeyFiles.ofShape inputs outputs
    let r := s.resolve network files inputs outputs
    (∀ remote, s.remote = some remote → ∀ path ∈ relative.toList,
      (remote.address path ∈ r.fetched →
        Stored network r.files (remote.address path) (below remote.scratch path) ∨
          ∃ e before, r.result = .error e ∧
            Refused network before r.files (remote.address path) (below remote.scratch path) e) ∧
      ∀ bytes, files.read? (below remote.scratch path) = some bytes →
        r.files.read? (below remote.scratch path) = some bytes) ∧
    ∀ inputs' outputs', (inputs, outputs) ≠ (inputs', outputs') → ∀ root,
      ∀ path ∈ ((KeyFiles.ofShape inputs' outputs').under root).toList, ∀ bytes,
        files.read? path = some bytes → r.files.read? path = some bytes := by
  refine ⟨fun remote hremote path hpath => ⟨resolve_stored hremote hpath, fun bytes => ?_⟩,
    fun inputs' outputs' hshape root path hpath bytes => ?_⟩
  · refine resolve_kept fun remote' hremote' own hown => ?_
    obtain rfl : remote = remote' := Option.some.inj (hremote.symm.trans hremote')
    exact KeyFiles.eq_or_apart (slash_notMem_circuitName _ _) remote.scratch hown hpath
  · refine resolve_kept fun remote hremote own hown => .inr ?_
    exact KeyFiles.apart_of_ne hshape (List.mem_map_of_mem hown) hpath

theorem resolve_ok {found : KeyFiles}
    (h : (s.resolve network files inputs outputs).result = .ok found) :
    found.Complete (s.resolve network files inputs outputs).files ∧
      ((∃ dir, s.localDir = some dir ∧
          ((KeyFiles.ofShape inputs outputs).under dir).Complete files ∧
          found = (KeyFiles.ofShape inputs outputs).under dir ∧
          (s.resolve network files inputs outputs).fetched = []) ∨
        ¬ s.Stocked files (KeyFiles.ofShape inputs outputs) ∧
          ∃ remote, s.remote = some remote ∧
            found = (KeyFiles.ofShape inputs outputs).under remote.scratch ∧
            (s.resolve network files inputs outputs).fetched.Sublist
              (remote.wanted files (KeyFiles.ofShape inputs outputs))) := by
  rcases resolve_cases s network files inputs outputs with
    ⟨dir, hdir, hall, hr⟩ | ⟨hlocal, ⟨remote, hremote, hr⟩ | ⟨-, hr⟩⟩
  · rw [hr] at h ⊢
    cases h
    exact ⟨hall, .inl ⟨dir, hdir, hall, rfl, rfl⟩⟩
  · rw [hr] at h ⊢
    have hsupplied := supplied network files (slash_notMem_circuitName inputs outputs) remote
    obtain ⟨rfl, hall⟩ := hsupplied.found found h
    exact ⟨hall, .inr ⟨hlocal, remote, hremote, rfl, hsupplied.fetched_sublist⟩⟩
  · rw [hr] at h
    cases h

theorem resolve_ok_of_stocked
    (h : s.Stocked files (KeyFiles.ofShape inputs outputs)) :
    ∃ found, (s.resolve network files inputs outputs).result = .ok found := by
  rcases resolve_cases s network files inputs outputs with ⟨dir, -, -, hr⟩ | ⟨hlocal, -⟩
  · exact ⟨_, congrArg Resolution.result hr⟩
  · exact absurd h hlocal

theorem not_stocked_iff {relative : KeyFiles} :
    ¬ s.Stocked files relative ↔ s.localDir = none ∨ ∃ dir, s.localDir = some dir ∧
      ∃ path ∈ (relative.under dir).toList, ¬ files.contains path := by
  unfold Stocked KeyFiles.Complete
  cases s.localDir with
  | none => simp
  | some dir => simp

/-- Without a remote root, what is not in the local directory is missing. -/
theorem resolve_of_no_remote (hremote : s.remote = none) :
    ((∃ e, (s.resolve network files inputs outputs).result = .error e) ↔
      ¬ s.Stocked files (KeyFiles.ofShape inputs outputs)) ∧
    ∀ e, (s.resolve network files inputs outputs).result = .error e →
      ∃ path, e = .missing (circuitName inputs outputs) path ∧
        (s.localDir = none → path = (KeyFiles.ofShape inputs outputs).program) ∧
        ∀ dir, s.localDir = some dir →
          ((KeyFiles.ofShape inputs outputs).under dir).FirstMissing files path := by
  rcases resolve_cases s network files inputs outputs with
    ⟨dir, hdir, hall, hr⟩ | ⟨hlocal, ⟨remote, hsome, -⟩ | ⟨-, hr⟩⟩
  · rw [hr]
    refine ⟨⟨nofun, fun hlocal => absurd ⟨dir, hdir, hall⟩ hlocal⟩, nofun⟩
  · rw [hremote] at hsome
    cases hsome
  · rw [hr]
    refine ⟨⟨fun _ => hlocal, fun _ => ⟨_, rfl⟩⟩, ?_⟩
    rintro _ ⟨⟩
    exact ⟨_, rfl, missingLocal_spec hlocal⟩

/-- What a resolution finds, fetches and misses, over all stores, networks and trees: the files of
the shape, complete, below the local directory if they are there and below the scratch directory
otherwise.  No more is fetched than what is not there, only a download can fail if there is a remote
root, and no path is one of another shape. -/
theorem resolve_exact (s : KeyStore) (network : Network) (files : FileTree)
    (inputs outputs : Nat) :
    let relative := KeyFiles.ofShape inputs outputs
    let r := s.resolve network files inputs outputs
    (∀ found, r.result = .ok found → found.Complete r.files ∧
      ((∃ dir, s.localDir = some dir ∧ (relative.under dir).Complete files ∧
          found = relative.under dir ∧ r.fetched = []) ∨
        ¬ s.Stocked files relative ∧ ∃ remote, s.remote = some remote ∧
          found = relative.under remote.scratch ∧
          r.fetched.Sublist (remote.wanted files relative))) ∧
    (s.Stocked files relative → ∃ found, r.result = .ok found) ∧
    (∀ remote e, s.remote = some remote → r.result = .error e → ∃ path ∈ relative.toList,
      remote.address path ∈ r.fetched ∧ ∃ before, files.Grows before ∧
        Refused network before r.files (remote.address path) (below remote.scratch path) e) ∧
    (s.remote = none →
      ((∃ e, r.result = .error e) ↔ s.localDir = none ∨ ∃ dir, s.localDir = some dir ∧
        ∃ path ∈ (relative.under dir).toList, ¬ files.contains path) ∧
      ∀ e, r.result = .error e → ∃ path, e = .missing (circuitName inputs outputs) path ∧
        (s.localDir = none → path = relative.program) ∧
        ∀ dir, s.localDir = some dir → (relative.under dir).FirstMissing files path) ∧
    ∀ inputs' outputs', (inputs, outputs) ≠ (inputs', outputs') → ∀ root root',
      (relative.under root).toList.Disjoint
        ((KeyFiles.ofShape inputs' outputs').under root').toList := by
  refine ⟨fun found h => resolve_ok h, resolve_ok_of_stocked,
    fun remote e hremote h => resolve_error_of_remote hremote h, fun hremote => ?_, ?_⟩
  · rw [← not_stocked_iff]
    exact resolve_of_no_remote hremote
  · intro inputs' outputs' hshape root root'
    exact KeyFiles.disjoint_toList root root' hshape

/-- A tree with the first and the last file of a circuit below one directory, and the second one
below another. -/
def splitTree : FileTree where
  entry? place :=
    if place ∈ [["keys"], ["keys", "zkeys"], ["cache"], ["cache", "circuits"],
        ["cache", "vks"]] then
      some .directory
    else if place ∈ [["keys", "zkeys", "zk_transaction_1_2.zkey"],
        ["cache", "circuits", "zk_transaction_1_2.wasm"],
        ["cache", "vks", "zk_transaction_1_2.vk.json"]] then
      some (.file [])
    else none

theorem downloadMissing_splitTree : ∃ files',
    downloadMissing (fun _ => .ok []) splitTree
        ((⟨"http://127.0.0.1:9", "/cache"⟩ : RemoteKeys).targets (KeyFiles.ofShape 1 2)) =
      (.ok (), files', ["http://127.0.0.1:9/zkeys/zk_transaction_1_2.zkey"]) := by
  have htargets : (⟨"http://127.0.0.1:9", "/cache"⟩ : RemoteKeys).targets (KeyFiles.ofShape 1 2) =
      [("http://127.0.0.1:9/circuits/zk_transaction_1_2.wasm",
          "/cache/circuits/zk_transaction_1_2.wasm"),
        ("http://127.0.0.1:9/zkeys/zk_transaction_1_2.zkey",
          "/cache/zkeys/zk_transaction_1_2.zkey"),
        ("http://127.0.0.1:9/vks/zk_transaction_1_2.vk.json",
          "/cache/vks/zk_transaction_1_2.vk.json")] := by
    decide +kernel
  have hprogram : splitTree.contains "/cache/circuits/zk_transaction_1_2.wasm" := by
    rw [FileTree.contains_eq (pathNames_eq (by decide) (by decide))]
    decide +kernel
  have hproving : ¬ splitTree.contains "/cache/zkeys/zk_transaction_1_2.zkey" := by
    rw [FileTree.contains_eq (pathNames_eq (by decide) (by decide))]
    decide +kernel
  have hverifying : splitTree.contains "/cache/vks/zk_transaction_1_2.vk.json" := by
    rw [FileTree.contains_eq (pathNames_eq (by decide) (by decide))]
    decide +kernel
  have hway : splitTree.makeDirectories (directoryOf "/cache/zkeys/zk_transaction_1_2.zkey") =
      (.ok (), splitTree.set ["cache", "zkeys"] (some .directory)) := by
    have hdirectory : directoryOf "/cache/zkeys/zk_transaction_1_2.zkey" = "/cache/zkeys" := by
      decide +kernel
    rw [hdirectory, FileTree.makeDirectories, if_neg (by decide),
      pathNames_eq (by decide) (by decide)]
    rfl
  have hwrite : splitTree.write "/cache/zkeys/zk_transaction_1_2.zkey" [] = (.ok (),
      (splitTree.set ["cache", "zkeys"] (some .directory)).set
        ["cache", "zkeys", "zk_transaction_1_2.zkey"] (some (.file []))) := by
    rw [FileTree.write, FileTree.put, hway, FileTree.Change.andThen, FileTree.create,
      FileTree.locateFrom, pathNames_eq (by decide) (by decide)]
    rfl
  have hlater := (FileTree.Grows.of_write hwrite).contains hverifying
  rw [htargets, downloadMissing, if_pos hprogram, downloadMissing, if_neg hproving]
  simp only [hwrite, downloadMissing, hlater, if_true]
  exact ⟨_, rfl⟩

/-- The second file, which stands below the local directory, is fetched nevertheless.  Without a
remote root, the first file is named as missing. -/
theorem resolve_exact_splitTree :
    let s := KeyStore.new (some "/keys") (some "http://127.0.0.1:9/") "/cache"
    let r := s.resolve (fun _ => .ok []) splitTree 1 2
    (r.result = .ok ((KeyFiles.ofShape 1 2).under "/cache") ∧
      r.fetched = ["http://127.0.0.1:9/zkeys/zk_transaction_1_2.zkey"]) ∧
    ((KeyFiles.ofShape 1 2).under "/cache").Complete r.files ∧
    (∃ path, ((KeyStore.new (some "/keys") none "/cache").resolve (fun _ => .ok [])
        splitTree 1 2).result = .error (.missing "zk_transaction_1_2" path) ∧
      ((KeyFiles.ofShape 1 2).under "/keys").FirstMissing splitTree path) ∧
    ((KeyFiles.ofShape 1 2).under "/keys").toList.Disjoint
      ((KeyFiles.ofShape 12 2).under "/keys").toList := by
  intro s r
  have hpath : "/keys/circuits/zk_transaction_1_2.wasm" ∈
      ((KeyFiles.ofShape 1 2).under "/keys").toList := by
    decide +kernel
  have hmissing : ¬ splitTree.contains "/keys/circuits/zk_transaction_1_2.wasm" := by
    rw [FileTree.contains_eq (pathNames_eq (by decide) (by decide))]
    decide +kernel
  have hlocal : s.local? splitTree (KeyFiles.ofShape 1 2) = none := by
    rw [local?_eq_none_iff, not_stocked_iff]
    exact .inr ⟨"/keys", rfl, _, hpath, hmissing⟩
  have hremote : s.remote = some ⟨"http://127.0.0.1:9", "/cache"⟩ := by decide +kernel
  obtain ⟨files', hdownloads⟩ := downloadMissing_splitTree
  have hr : r = ⟨.ok ((KeyFiles.ofShape 1 2).under "/cache"), files',
      ["http://127.0.0.1:9/zkeys/zk_transaction_1_2.zkey"]⟩ := by
    change s.resolve (fun _ => .ok []) splitTree 1 2 = _
    rw [resolve, hlocal, hremote]
    simp only [resolveRemote_eq, hdownloads]
    rfl
  have hresult : r.result = .ok ((KeyFiles.ofShape 1 2).under "/cache") := by rw [hr]
  refine ⟨⟨hresult, by rw [hr]⟩, ?_, ?_, ?_⟩
  · exact ((resolve_exact s (fun _ => .ok []) splitTree 1 2).1 _ hresult).1
  · obtain ⟨hfails, hnamed⟩ := (resolve_exact (KeyStore.new (some "/keys") none "/cache")
      (fun _ => .ok []) splitTree 1 2).2.2.2.1 rfl
    obtain ⟨e, he⟩ := hfails.mpr (.inr ⟨"/keys", rfl, _, hpath, hmissing⟩)
    obtain ⟨path, rfl, -, hfirst⟩ := hnamed e he
    exact ⟨path, he, hfirst "/keys" rfl⟩
  · exact (resolve_exact s (fun _ => .ok []) splitTree 1 2).2.2.2.2 12 2 (by decide) _ _

end KeyStore

end ShieldedWallet
