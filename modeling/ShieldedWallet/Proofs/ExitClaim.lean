/-
What the claim of an exit binds.

The base ledger pays out a withdrawal against the digest of seven fields laid
side by side.  They are the note's hash and the data that the exit shows as an
output of its transaction, all in their full widths: amounts that the note's
hash does not tell apart are told apart here.

* `Exit.SameClaim` — exits that agree in the seven fields;
* `Exit.claimBytes_eq_packed` — a claim is what its exit packs as an output;
* `Exit.claimBytes_eq_iff` — claims agree exactly if the seven fields do;
* `Exit.claimHash_eq_iff` — so do their digests, short of a collision;
* `Exit.SameClaim.note_eq` — and then the notes are the same, short of a
  collision of the note's own hash.
-/
import ShieldedWallet.Proofs.Commitment
import ShieldedWallet.Proofs.Identity

namespace ShieldedWallet

namespace Exit

variable {e e' : Exit}

/-- The exits agree in all that a claim names. -/
structure SameClaim (e e' : Exit) : Prop where
  noteHash : e.note.hash = e'.note.hash
  destination : e.destination = e'.destination
  eth : e.note.asset.eth = e'.note.asset.eth
  token : e.note.asset.token = e'.note.asset.token
  amount : e.note.asset.amount = e'.note.asset.amount
  tokenId : e.note.asset.tokenId = e'.note.asset.tokenId
  fee : e.fee = e'.fee

/-- The view of the exit as an output of its transaction. -/
def view (e : Exit) : OutflowView := .ofOutflow (.withdrawal e)

theorem claimBytes_eq_packed (e : Exit) : e.claimBytes = e.view.packed := by
  -- both lay the hash before the same data, which the claim does not put in brackets
  simp [claimBytes, view, OutflowView.ofOutflow, OutflowView.packed, Outflow.note, Outflow.exit?,
    ExitData.ofExit, ExitData.toBytes]

theorem content_view_eq_iff : e.view.content = e'.view.content ↔ e.SameClaim e' := by
  have hcontent (e : Exit) : e.view.content = (e.note.hash, some (ExitData.ofExit e)) := rfl
  rw [hcontent, hcontent, Prod.mk.injEq, Option.some.injEq, ExitData.ofExit, ExitData.ofExit,
    ExitData.mk.injEq]
  constructor
  · rintro ⟨hnote, hdestination, heth, htoken, hamount, htokenId, hfee⟩
    exact ⟨hnote, hdestination, heth, htoken, hamount, htokenId, hfee⟩
  · intro h
    exact ⟨h.noteHash, h.destination, h.eth, h.token, h.amount, h.tokenId, h.fee⟩

theorem claimBytes_eq_iff : e.claimBytes = e'.claimBytes ↔ e.SameClaim e' := by
  rw [claimBytes_eq_packed, claimBytes_eq_packed, ← content_view_eq_iff]
  constructor
  · exact OutflowView.content_eq_of_packed rfl
  · intro h
    obtain ⟨hnote, hdata⟩ := Prod.mk.inj h
    rw [OutflowView.packed, OutflowView.packed, hnote, hdata]

/-- A claim takes 200 bytes, and claims have one digest exactly if they agree in every field, or
are two strings of bytes that collide. -/
theorem claimHash_eq_iff (e e' : Exit) :
    (e.claimBytes.length = 200 ∧ e'.claimBytes.length = 200) ∧
      (e.claimHash = e'.claimHash ↔
        e.SameClaim e' ∨
          (e.claimBytes ≠ e'.claimBytes ∧ keccak256 e.claimBytes = keccak256 e'.claimBytes)) := by
  refine ⟨⟨e.length_claimBytes, e'.length_claimBytes⟩, ?_⟩
  constructor
  · intro h
    by_cases hbytes : e.claimBytes = e'.claimBytes
    · exact .inl (claimBytes_eq_iff.mp hbytes)
    · exact .inr ⟨hbytes, h⟩
  · rintro (hsame | ⟨-, hcollides⟩)
    · exact congrArg keccak256 (claimBytes_eq_iff.mpr hsame)
    · exact hcollides

/-- Owner and salt stand in a claim by the note's hash only, which binds them short of a collision;
the asset stands there in full. -/
theorem SameClaim.note_eq (h : e.SameClaim e') (hcollides : ¬ e.note.Collides e'.note) :
    e.note = e'.note := by
  have hcongruent : e.note.Congruent e'.note := Note.congruent_of_hash_eq h.noteHash hcollides
  have hasset : e.note.asset = e'.note.asset := Asset.ext h.eth h.token h.amount h.tokenId
  exact Note.ext hcongruent.owner hcongruent.salt hasset

end Exit

end ShieldedWallet
