/-
Downloads into a tree.

A run of downloads fetches the targets that do not exist, one after another,
until one fails.  It only adds to the tree, so a target that exists is never
fetched, and one that was fetched exists from then on.  If the targets are apart
from each other, no download touches what another one wrote.

* `KeyStore.Refused` — why a download fails, and `KeyStore.Refused.again`, that it
  would fail again;
* `KeyStore.Downloaded` — what a run of downloads does;
* `KeyStore.downloaded` — every run does so.
-/
import ShieldedWallet.Proofs.Paths
import ShieldedWallet.Proving.Keys

namespace ShieldedWallet

/-! ### Downloads that fail -/

namespace KeyStore

/-- A download fails: its address has no answer, or the answer cannot be kept at its path, where
the directories made for it stay. -/
def Refused (network : Network) (files files' : FileTree) (address path : String)
    (e : KeyError) : Prop :=
  (∃ reason, network address = .error reason ∧ files' = files ∧ e = .download address reason) ∨
    ∃ bytes fault, network address = .ok bytes ∧
      files.write path bytes = (.error fault, files') ∧ e = .blocked path fault

section Refused

variable {network : Network} {files files' : FileTree} {address path : String} {e : KeyError}

theorem Refused.grows (h : Refused network files files' address path e) : files.Grows files' := by
  rcases h with ⟨_, -, rfl, -⟩ | ⟨_, _, -, hwrite, -⟩
  · exact .refl files'
  · exact .of_write hwrite

theorem Refused.kept (h : Refused network files files' address path e) {other : String}
    {bytes : Bytes} (hapart : Apart path other) (hread : files.read? other = some bytes) :
    files'.read? other = some bytes := by
  rcases h with ⟨_, -, rfl, -⟩ | ⟨_, _, -, hwrite, -⟩
  · exact hread
  · exact FileTree.read?_of_write_apart hapart hwrite hread

/-- What is refused is refused from then on, and leaves the tree as it is. -/
theorem Refused.again (h : Refused network files files' address path e) :
    ∃ e', Refused network files' files' address path e' := by
  rcases h with ⟨reason, hnone, -, -⟩ | ⟨bytes, fault, hbytes, hwrite, -⟩
  · exact ⟨_, .inl ⟨reason, hnone, rfl, rfl⟩⟩
  · obtain ⟨fault', hagain⟩ := FileTree.write_again hwrite
    exact ⟨_, .inr ⟨bytes, fault', hbytes, hagain, rfl⟩⟩

end Refused

/-! ### Runs of downloads -/

/-- The file at a path holds what its address answers. -/
def Stored (network : Network) (files : FileTree) (address path : String) : Prop :=
  ∃ bytes, network address = .ok bytes ∧ files.read? path = some bytes

/-- What a run of downloads into a tree does: it adds files, fetches only for targets that do not
exist, and ends with all targets there or with what kept the last one away.  A file stays as it is
if each target is its own path or apart from it.  If the targets are apart from each other, those
fetched hold what their addresses answer, but for the one that was refused. -/
structure Downloaded (network : Network) (files : FileTree) (targets : List (String × String))
    (outcome : Except KeyError Unit) (files' : FileTree) (fetched : List String) : Prop where
  grows : files.Grows files'
  fetched_sublist :
    fetched.Sublist ((targets.filter fun target => !files.contains target.2).map Prod.fst)
  complete : outcome = .ok () → ∀ target ∈ targets, files'.contains target.2
  fault : ∀ e, outcome = .error e → ∃ target ∈ targets, target.1 ∈ fetched ∧
    ∃ before, files.Grows before ∧ Refused network before files' target.1 target.2 e
  kept : ∀ path bytes, (∀ target ∈ targets, target.2 = path ∨ Apart target.2 path) →
    files.read? path = some bytes → files'.read? path = some bytes
  stored : targets.Pairwise (fun target other => target.1 ≠ other.1 ∧ Apart target.2 other.2) →
    ∀ target ∈ targets, target.1 ∈ fetched → Stored network files' target.1 target.2 ∨
      ∃ e before, outcome = .error e ∧ Refused network before files' target.1 target.2 e

section Downloaded

variable {network : Network} {files files' : FileTree} {rest : List (String × String)}
  {outcome : Except KeyError Unit} {fetched : List String} {address target : String}

/-- Only addresses of targets are fetched. -/
theorem Downloaded.exists_target {targets : List (String × String)}
    (h : Downloaded network files targets outcome files' fetched) (hmem : address ∈ fetched) :
    ∃ target ∈ targets, target.1 = address := by
  obtain ⟨target, htarget, rfl⟩ := List.mem_map.mp (h.fetched_sublist.subset hmem)
  exact ⟨target, (List.mem_filter.mp htarget).1, rfl⟩

theorem Downloaded.cons (h : Downloaded network files rest outcome files' fetched)
    (hthere : files.contains target) :
    Downloaded network files ((address, target) :: rest) outcome files' fetched where
  grows := h.grows
  fetched_sublist := by
    rw [List.filter_cons_of_neg (by simp [hthere])]
    exact h.fetched_sublist
  complete hok := by
    rw [List.forall_mem_cons]
    exact ⟨h.grows.contains hthere, h.complete hok⟩
  fault e he := by
    obtain ⟨failed, hmem, hfetched, hfault⟩ := h.fault e he
    exact ⟨failed, List.mem_cons_of_mem _ hmem, hfetched, hfault⟩
  kept path bytes hpath := h.kept path bytes fun later hlater => hpath later (.tail _ hlater)
  stored hapart := by
    obtain ⟨hhead, hrest⟩ := List.pairwise_cons.mp hapart
    refine List.forall_mem_cons.mpr ⟨fun hfetched => ?_, h.stored hrest⟩
    -- the address of a target that is there is no other one's
    obtain ⟨later, hlater, heq⟩ := h.exists_target hfetched
    exact absurd heq.symm (hhead later hlater).1

theorem Downloaded.cons_written {written : FileTree} {bytes : Bytes}
    (h : Downloaded network written rest outcome files' fetched)
    (hmissing : ¬ files.contains target) (hbytes : network address = .ok bytes)
    (hwrite : files.write target bytes = (.ok (), written)) :
    Downloaded network files ((address, target) :: rest) outcome files' (address :: fetched) where
  grows := (FileTree.Grows.of_write hwrite).trans h.grows
  fetched_sublist := by
    rw [List.filter_cons_of_pos (by simpa using hmissing), List.map_cons]
    refine (h.fetched_sublist.trans ?_).cons_cons address
    -- what is still missing after the file was written was missing before
    refine (List.monotone_filter_right rest fun later hlater => ?_).map Prod.fst
    rw [Bool.not_eq_true', ← Bool.not_eq_true] at hlater ⊢
    exact fun hthere => hlater ((FileTree.Grows.of_write hwrite).contains hthere)
  complete hok := by
    rw [List.forall_mem_cons]
    exact ⟨h.grows.contains (FileTree.contains_of_write hwrite), h.complete hok⟩
  fault e he := by
    obtain ⟨failed, hmem, hfetched, before, hbefore, hfault⟩ := h.fault e he
    exact ⟨failed, List.mem_cons_of_mem _ hmem, List.mem_cons_of_mem _ hfetched, before,
      (FileTree.Grows.of_write hwrite).trans hbefore, hfault⟩
  kept path found hpath hread := by
    obtain ⟨hhead, hrest⟩ := List.forall_mem_cons.mp hpath
    rcases hhead with rfl | hhead
    · exact absurd (FileTree.contains_of_read? hread) hmissing
    · exact h.kept path found hrest (FileTree.read?_of_write_apart hhead hwrite hread)
  stored hapart := by
    obtain ⟨hhead, hrest⟩ := List.pairwise_cons.mp hapart
    refine List.forall_mem_cons.mpr
      ⟨fun _ => .inl ⟨bytes, hbytes, ?_⟩, fun later hlater hfetched => ?_⟩
    · -- the later targets are apart, so the file stays as it was written
      exact h.kept target bytes (fun later hlater => .inr (hhead later hlater).2.symm)
        (FileTree.read?_of_write hwrite)
    · rcases List.mem_cons.mp hfetched with heq | hfetched
      · exact absurd heq.symm (hhead later hlater).1
      · exact h.stored hrest later hlater hfetched

theorem Downloaded.of_refused {e : KeyError} (hmissing : ¬ files.contains target)
    (he : Refused network files files' address target e) :
    Downloaded network files ((address, target) :: rest) (.error e) files' [address] where
  grows := he.grows
  fetched_sublist := by
    rw [List.filter_cons_of_pos (by simpa using hmissing), List.map_cons]
    exact (List.nil_sublist _).cons_cons address
  complete hok := by cases hok
  fault e' he' := by
    cases he'
    exact ⟨(address, target), List.mem_cons_self, List.mem_singleton_self address, files,
      .refl files, he⟩
  kept path bytes hpath hread := by
    rcases hpath _ List.mem_cons_self with rfl | hapart
    · exact absurd (FileTree.contains_of_read? hread) hmissing
    · exact he.kept hapart hread
  stored hapart := by
    obtain ⟨hhead, -⟩ := List.pairwise_cons.mp hapart
    refine List.forall_mem_cons.mpr
      ⟨fun _ => .inr ⟨e, files, rfl, he⟩, fun later hlater hfetched => ?_⟩
    exact absurd (List.mem_singleton.mp hfetched).symm (hhead later hlater).1

end Downloaded

theorem downloaded (network : Network) (files : FileTree) (targets : List (String × String)) :
    Downloaded network files targets (downloadMissing network files targets).1
      (downloadMissing network files targets).2.1 (downloadMissing network files targets).2.2 := by
  induction targets generalizing files with
  | nil =>
    exact ⟨.refl files, List.nil_sublist _, fun _ => nofun, nofun, fun _ _ _ hread => hread,
      fun _ => nofun⟩
  | cons target rest ih =>
    obtain ⟨address, target⟩ := target
    rw [downloadMissing]
    by_cases hthere : files.contains target
    · rw [if_pos hthere]
      exact (ih files).cons hthere
    · rw [if_neg hthere]
      split
      · next reason hnone => exact .of_refused hthere (.inl ⟨reason, hnone, rfl, rfl⟩)
      · next bytes hbytes =>
        split
        · next fault files' hwrite =>
          exact .of_refused hthere (.inr ⟨bytes, fault, hbytes, hwrite, rfl⟩)
        · next written hwrite => exact (ih written).cons_written hthere hbytes hwrite

theorem downloadMissing_of_contains (network : Network) {files : FileTree}
    {targets : List (String × String)} (h : ∀ target ∈ targets, files.contains target.2) :
    downloadMissing network files targets = (.ok (), files, []) := by
  induction targets with
  | nil => rfl
  | cons target rest ih =>
    obtain ⟨hthere, hrest⟩ := List.forall_mem_cons.mp h
    rw [downloadMissing, if_pos hthere, ih hrest]

end KeyStore

end ShieldedWallet
