/-
How many notes a memo gives.

A memo is written by the sender and may hold any chunks, also the same one many
times.  Each chunk is looked at by itself: what it gives is kept if the hash is
that of an output, whether or not another chunk gave it before.

* `Transaction.chunks` — the chunks of the memo, none if it cannot be parsed;
* `Transaction.chunkCount` — how many of them a viewer reads as a note of a
  hash;
* `Transaction.map_hash_recoverNotes` — the hashes of the notes found;
* `Transaction.recoverNotes_counts` — each output is found as often as there are
  chunks for it, so none twice exactly if no output has two chunks.
-/
import ShieldedWallet.Proofs.Commitment
import ShieldedWallet.Proofs.Payloads

namespace ShieldedWallet

/-! ### What is found -/

/-- The hash of the note that a viewer reads. -/
def EncryptedNote.readHash? (c : EncryptedNote) (viewer : Viewer) (tokens : List LedgerAddress) :
    Option Felt :=
  (c.decrypt? viewer tokens).map Note.hash

theorem EncryptedNote.map_hash_decryptExpected? (c : EncryptedNote) (viewer : Viewer)
    (tokens : List LedgerAddress) (expected : List Felt) :
    (c.decryptExpected? viewer tokens expected).map Note.hash =
      (c.readHash? viewer tokens).filter fun h => decide (h ∈ expected) := by
  rw [decryptExpected?, readHash?]
  cases c.decrypt? viewer tokens with
  | none => rfl
  | some n =>
    by_cases hmem : n.hash ∈ expected
    · simp [hmem, Option.filter]
    · simp [hmem, Option.filter]

namespace Transaction

/-- The encrypted notes of the memo; there are none where it cannot be parsed. -/
def chunks (tx : Transaction) : List EncryptedNote :=
  match tx.parseMemo with
  | .ok (some content) => content.encryptedNotes
  | _ => []

/-- Chunks of the memo that a viewer reads as a note of the given hash. -/
def chunkCount (tx : Transaction) (viewer : Viewer) (tokens : List LedgerAddress) (h : Felt) :
    Nat :=
  tx.chunks.countP fun c => decide (c.readHash? viewer tokens = some h)

section Recovery

variable (tx : Transaction) (viewer : Viewer) (tokens : List LedgerAddress)

theorem recoverNotes_eq :
    tx.recoverNotes viewer tokens =
      tx.chunks.filterMap fun c => c.decryptExpected? viewer tokens tx.outputHashes := by
  rw [recoverNotes, chunks]
  cases tx.parseMemo with
  | error e => rfl
  | ok content =>
    cases content with
    | none => rfl
    | some content => rfl

/-- The hashes of the notes found are those that the chunks give, less those of no output. -/
theorem map_hash_recoverNotes :
    (tx.recoverNotes viewer tokens).map Note.hash =
      (tx.chunks.filterMap fun c => c.readHash? viewer tokens).filter fun h =>
        decide (h ∈ tx.outputHashes) := by
  rw [recoverNotes_eq, List.map_filterMap, List.filter_filterMap]
  exact congrArg (tx.chunks.filterMap ·) (funext fun c =>
    c.map_hash_decryptExpected? viewer tokens tx.outputHashes)

theorem hash_mem_of_mem_recoverNotes {n : Note} (hn : n ∈ tx.recoverNotes viewer tokens) :
    n.hash ∈ tx.outputHashes := by
  have hmem : n.hash ∈ (tx.recoverNotes viewer tokens).map Note.hash := List.mem_map_of_mem hn
  rw [map_hash_recoverNotes] at hmem
  exact of_decide_eq_true (List.mem_filter.mp hmem).2

theorem count_recoverNotes {h : Felt} (hout : h ∈ tx.outputHashes) :
    ((tx.recoverNotes viewer tokens).map Note.hash).count h = tx.chunkCount viewer tokens h := by
  rw [map_hash_recoverNotes, List.count_filter (p := fun h => decide (h ∈ tx.outputHashes))
    (decide_eq_true hout), List.count_filterMap, chunkCount]
  exact List.countP_congr fun c _ => by rw [beq_iff_eq, decide_eq_true_eq]

/-- Every note found is an output, and every output is found as often as there are chunks for it.
So the notes found are of distinct outputs exactly if no output has two chunks, and are then no more
than the outputs. -/
theorem recoverNotes_counts :
    (∀ n ∈ tx.recoverNotes viewer tokens, n.hash ∈ tx.outputHashes) ∧
      (∀ h ∈ tx.outputHashes, ((tx.recoverNotes viewer tokens).map Note.hash).count h =
        tx.chunkCount viewer tokens h) ∧
        (((tx.recoverNotes viewer tokens).map Note.hash).Nodup ↔
          ∀ h ∈ tx.outputHashes, tx.chunkCount viewer tokens h ≤ 1) ∧
          (((tx.recoverNotes viewer tokens).map Note.hash).Nodup →
            (tx.recoverNotes viewer tokens).length ≤ tx.outflow.length) := by
  have houtputs : (tx.recoverNotes viewer tokens).map Note.hash ⊆ tx.outputHashes := by
    intro h hh
    obtain ⟨n, hn, rfl⟩ := List.mem_map.mp hh
    exact tx.hash_mem_of_mem_recoverNotes viewer tokens hn
  refine ⟨fun n => tx.hash_mem_of_mem_recoverNotes viewer tokens,
    fun h => tx.count_recoverNotes viewer tokens, ?_, fun hnodup => ?_⟩
  · rw [List.nodup_iff_count_le_one]
    constructor
    · intro hcounts h hout
      rw [← tx.count_recoverNotes viewer tokens hout]
      exact hcounts h
    · intro hchunks h
      by_cases hout : h ∈ tx.outputHashes
      · rw [tx.count_recoverNotes viewer tokens hout]
        exact hchunks h hout
      · -- what is no output is not found at all
        rw [List.count_eq_zero.mpr fun hmem => hout (houtputs hmem)]
        exact Nat.zero_le 1
  · have hlen := (List.subperm_of_subset hnodup houtputs).length_le
    rwa [List.length_map, outputHashes, List.length_map] at hlen

end Recovery

end Transaction

namespace Desk

/-- A transaction that pays thirty to the desk's account, with a payload. -/
def payment (p : MemoPayload) : Transaction where
  inflow := [⟨3, 5⟩]
  outflow := [⟨(ownNote 30).hash, .plain, none⟩]
  fee := 5
  proof := ⟨1, 2, 3, 4, 5, 6, 7, 8⟩
  swap := none
  memo := some (.payload p)

theorem outputHashes_payment (p : MemoPayload) :
    (payment p).outputHashes = [(ownNote 30).hash] := List.map_singleton

theorem chunks_payment {cs : List EncryptedNote} {p : MemoPayload}
    (h : MemoPayload.ofNotes cs = .ok p) : (payment p).chunks = cs := by
  have hparse : (payment p).parseMemo = .ok (some (.notes cs)) := by
    show p.parse.map some = _
    rw [MemoPayload.parse_ofNotes h]
    rfl
  rw [Transaction.chunks, hparse]
  rfl

/-- The account finds thirty as often as the payload has the chunk. -/
theorem recoverNotes_payment {c : EncryptedNote} {n : Nat} {p : MemoPayload}
    (hencrypt : (ownNote 30).encrypt [] 3 = .ok c)
    (h : MemoPayload.ofNotes (List.replicate n c) = .ok p) :
    (payment p).recoverNotes ownDesk.account.viewer [] = List.replicate n (ownNote 30) := by
  have hmem : (ownNote 30).hash ∈ (payment p).outputHashes := by
    rw [outputHashes_payment]
    exact List.mem_singleton_self _
  have howner : (ownNote 30).owner = ownDesk.account.viewer.address := rfl
  have hread : c.decryptExpected? ownDesk.account.viewer [] (payment p).outputHashes =
      some (ownNote 30) :=
    Note.decryptExpected?_of_encrypt List.prefix_rfl howner hencrypt hmem
  rw [Transaction.recoverNotes_eq, chunks_payment h]
  exact List.filterMap_replicate_of_some hread

theorem exists_ofNotes_replicate (c : EncryptedNote) {n : Nat} (hn : n ≤ 800) :
    ∃ p, MemoPayload.ofNotes (List.replicate n c) = .ok p := by
  refine MemoPayload.exists_ofBytes_iff.mpr ?_
  rw [MemoPayload.length_ofNotes, List.length_replicate]
  omega

/-- One chunk for the output gives its note once. -/
theorem recoverNotes_counts_single :
    ∃ p, (payment p).chunkCount ownDesk.account.viewer [] (ownNote 30).hash = 1 ∧
      (((payment p).recoverNotes ownDesk.account.viewer []).map Note.hash).Nodup ∧
        ((payment p).recoverNotes ownDesk.account.viewer []).length ≤ 1 := by
  obtain ⟨c, hencrypt⟩ := exists_encrypt_ownNote 30
  obtain ⟨p, hp⟩ := exists_ofNotes_replicate c (show 1 ≤ 800 by decide)
  have hnotes := recoverNotes_payment hencrypt hp
  obtain ⟨-, hcount, -, hlen⟩ :=
    (payment p).recoverNotes_counts ownDesk.account.viewer []
  have hnodup : (((payment p).recoverNotes ownDesk.account.viewer []).map Note.hash).Nodup := by
    rw [hnotes]
    exact List.nodup_singleton _
  have hone := hcount (ownNote 30).hash (outputHashes_payment p ▸ List.mem_singleton_self _)
  rw [hnotes, List.replicate_one, List.map_singleton, List.count_singleton_self] at hone
  exact ⟨p, hone.symm, hnodup, hlen hnodup⟩

/-- A batch that has the chunk of the only output twice gives its note twice. -/
theorem recoverNotes_twice :
    ∃ c p, (ownNote 30).encrypt [] 3 = .ok c ∧ MemoPayload.ofNotes [c, c] = .ok p ∧
      Transaction.decode (payment p).encode = .ok (payment p) ∧
        (payment p).outputHashes = [(ownNote 30).hash] ∧
          (payment p).recoverNotes ownDesk.account.viewer [] = [ownNote 30, ownNote 30] := by
  obtain ⟨c, hencrypt⟩ := exists_encrypt_ownNote 30
  obtain ⟨p, hp⟩ := exists_ofNotes_replicate c (show 2 ≤ 800 by decide)
  have hwell : (payment p).WellFormed :=
    ⟨Nat.le_of_ble_eq_true rfl, Nat.le_of_ble_eq_true rfl, List.forall_mem_singleton.mpr rfl⟩
  have hdecode := Transaction.decode_eq_ok_iff.mpr ⟨hwell, rfl⟩
  exact ⟨c, p, hencrypt, hp, hdecode, outputHashes_payment p, recoverNotes_payment hencrypt hp⟩

end Desk

end ShieldedWallet
