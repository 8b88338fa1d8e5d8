/-
Totals of notes, whole, reordered and joined.

What notes are worth is a function of what each of them holds: it exists exactly
if no exact total exceeds 256 bits, and then it shows these totals, with an entry
for every token that is held and for no other.

* `Holdings.Exact` — the entries of holdings are the exact totals of a list of
  assets;
* `Holdings.ofAssets_unclassified` — an asset of both kinds, or of neither, counts
  for its ether;
* `Holdings.IsSum` — holdings are the sum of two, position by position;
* `Holdings.isSum_of_append` — what two lists are worth together;
* `Holdings.ofNotes_exact` — all of this, for notes.

Design notes: where several totals exceed 256 bits, the first to do so is
reported, so the order of the notes may show in the error; it shows in nothing
else but the order of ids.
-/
import ShieldedWallet.Proofs.OrderFree

namespace ShieldedWallet

namespace Holdings

variable {h h' : Holdings} {assets xs ys : List Asset}

/-! ### Entries -/

/-- The entries of holdings are the exact totals of a list of assets. -/
structure Exact (h : Holdings) (assets : List Asset) : Prop where
  eth : h.eth.toNat = etherTotal assets
  fungible : ∀ token amount, (token, amount) ∈ h.fungible ↔
    (∃ a ∈ assets, a.isFungibleOf token) ∧ amount.toNat = fungibleTotal token assets
  fungible_ne_zero : ∀ e ∈ h.fungible, e.2 ≠ 0
  single : ∀ token ids, (token, ids) ∈ h.single ↔
    (∃ a ∈ assets, a.isSingleOf token) ∧ ids = singleIds token assets
  fungible_ascending : h.fungible.Ascending
  single_ascending : h.single.Ascending

theorem Tallies.exact_entries (ht : h.Tallies assets) : h.Exact assets := by
  have hfungible (token : LedgerAddress) (amount : Amount) : (token, amount) ∈ h.fungible ↔
      (∃ a ∈ assets, a.isFungibleOf token) ∧ amount.toNat = fungibleTotal token assets := by
    rw [ht.fungible_ascending.mem_iff_getD 0, ht.mem_fungible, ← ht.amountOf token]
    exact and_congr_right fun _ => ⟨congrArg _, Amount.ext⟩
  refine ⟨ht.eth, hfungible, ?_, fun token ids => ?_, ht.fungible_ascending, ht.single_ascending⟩
  · rintro ⟨token, amount⟩ hmem rfl
    obtain ⟨hheld, hzero⟩ := (hfungible token 0).mp hmem
    exact absurd hzero.symm (Nat.pos_iff_ne_zero.mp (fungibleTotal_pos hheld))
  · rw [ht.single_ascending.mem_iff_getD [], ht.mem_single, ← ht.idsOf token]
    rfl

/-! ### Assets of both kinds or of neither -/

theorem addAsset_unclassified {a : Asset} (hf : a.isFungible = false) (hs : a.isSingle = false) :
    addAsset h a = addAsset h (.ether a.eth) := by
  have hf' : (Asset.ether a.eth).isFungible = false := rfl
  have hs' : (Asset.ether a.eth).isSingle = false := rfl
  unfold addAsset addPosition
  simp only [hf, hs, hf', hs']
  rfl

theorem ofAssets_unclassified {a : Asset} (hf : a.isFungible = false) (hs : a.isSingle = false) :
    ofAssets (xs ++ a :: ys) = ofAssets (xs ++ .ether a.eth :: ys) := by
  simp only [ofAssets, List.foldlM_append, List.foldlM_cons, addAsset_unclassified hf hs]

theorem unclassified_of_iff {a : Asset} (h : a.amount = 0 ↔ a.tokenId = 0) :
    a.isFungible = false ∧ a.isSingle = false := by
  by_cases hamount : a.amount = 0
  · simp [Asset.isFungible, Asset.isSingle, hamount, h.mp hamount]
  · simp [Asset.isFungible, Asset.isSingle, hamount, mt h.mpr hamount]

/-! ### Reordered -/

theorem exists_ofAssets_perm (hperm : xs.Perm ys) (hx : ofAssets xs = .ok h) :
    ∃ h', ofAssets ys = .ok h' ∧ h'.eth = h.eth ∧ h'.fungible = h.fungible ∧
      h'.single.keys = h.single.keys ∧ ∀ token, (h.idsOf token).Perm (h'.idsOf token) := by
  -- what fits in one order fits in the other
  have hfits : Fits xs := exists_ofAssets_iff.mp ⟨h, hx⟩
  obtain ⟨h', hy⟩ := exists_ofAssets_iff.mpr (hfits.perm hperm)
  have ht := tallies_of_ofAssets hx
  have ht' := tallies_of_ofAssets hy
  obtain ⟨heth, hfungible, hids⟩ := ht.agree ht' hperm
  refine ⟨h', hy, heth, hfungible, ?_, hids⟩
  refine ht'.single_ascending.keys_eq ht.single_ascending fun token => ?_
  rw [ht'.mem_single, ht.mem_single]
  exact exists_congr fun a => and_congr_left fun _ => hperm.mem_iff.symm

/-! ### Joined -/

/-- Holdings are the sum of two, position by position. -/
structure IsSum (h front back : Holdings) : Prop where
  eth : h.eth.toNat = front.eth.toNat + back.eth.toNat
  amountOf : ∀ token,
    (h.amountOf token).toNat = (front.amountOf token).toNat + (back.amountOf token).toNat
  idsOf : ∀ token, h.idsOf token = front.idsOf token ++ back.idsOf token
  mem_fungible : ∀ token,
    token ∈ h.fungible.keys ↔ token ∈ front.fungible.keys ∨ token ∈ back.fungible.keys
  mem_single : ∀ token,
    token ∈ h.single.keys ↔ token ∈ front.single.keys ∨ token ∈ back.single.keys

theorem Tallies.isSum {front back : Holdings} (ht : h.Tallies (xs ++ ys))
    (hx : front.Tallies xs) (hy : back.Tallies ys) : h.IsSum front back := by
  have hmem (p : Asset → Bool) :
      (∃ a ∈ xs ++ ys, p a) ↔ (∃ a ∈ xs, p a) ∨ ∃ a ∈ ys, p a := by
    simp only [List.mem_append, or_and_right, exists_or]
  refine ⟨?_, fun token => ?_, fun token => ?_, fun token => ?_, fun token => ?_⟩
  · rw [ht.eth, hx.eth, hy.eth, etherTotal_append]
  · rw [ht.amountOf, hx.amountOf, hy.amountOf, fungibleTotal_append]
  · rw [ht.idsOf, hx.idsOf, hy.idsOf, singleIds_append]
  · rw [ht.mem_fungible, hx.mem_fungible, hy.mem_fungible, hmem]
  · rw [ht.mem_single, hx.mem_single, hy.mem_single, hmem]

/-- What two lists are worth together is the sum of what each is worth. -/
theorem isSum_of_append (hjoined : ofAssets (xs ++ ys) = .ok h) :
    ∃ front back, ofAssets xs = .ok front ∧ ofAssets ys = .ok back ∧ h.IsSum front back := by
  have hfits : Fits (xs ++ ys) := exists_ofAssets_iff.mp ⟨h, hjoined⟩
  obtain ⟨front, hx⟩ := exists_ofAssets_iff.mpr hfits.of_append
  obtain ⟨back, hy⟩ := exists_ofAssets_iff.mpr (hfits.perm List.perm_append_comm).of_append
  exact ⟨front, back, hx, hy, (tallies_of_ofAssets hjoined).isSum (tallies_of_ofAssets hx)
    (tallies_of_ofAssets hy)⟩

/-! ### Notes -/

/-- The totals of notes exist exactly if no exact total exceeds 256 bits, and then they are exact.
A note of both kinds or of neither counts for its ether; the order of the notes shows in the order
of ids; and the totals of two lists together are those of each, added up. -/
theorem ofNotes_exact :
    (∀ notes : List Note,
      ((∃ h, ofNotes notes = .ok h) ↔
        etherTotal (notes.map Note.asset) < amountBound ∧
          ∀ token, fungibleTotal token (notes.map Note.asset) < amountBound) ∧
      ∀ h, ofNotes notes = .ok h → h.Exact (notes.map Note.asset)) ∧
    (∀ (front back : List Note) (n : Note), (n.asset.amount = 0 ↔ n.asset.tokenId = 0) →
      ofNotes (front ++ n :: back) =
        ofNotes (front ++ { n with asset := .ether n.asset.eth } :: back)) ∧
    (∀ (notes notes' : List Note) (h : Holdings), notes.Perm notes' → ofNotes notes = .ok h →
      ∃ h', ofNotes notes' = .ok h' ∧ h'.eth = h.eth ∧ h'.fungible = h.fungible ∧
        h'.single.keys = h.single.keys ∧ ∀ token, (h.idsOf token).Perm (h'.idsOf token)) ∧
    ∀ (front back : List Note) (h : Holdings), ofNotes (front ++ back) = .ok h →
      ∃ hfront hback, ofNotes front = .ok hfront ∧ ofNotes back = .ok hback ∧
        h.IsSum hfront hback := by
  refine ⟨?_, ?_, ?_, ?_⟩
  · intro notes
    refine ⟨exists_ofAssets_iff, ?_⟩
    intro h hof
    exact (tallies_of_ofAssets hof).exact_entries
  · intro front back n hn
    obtain ⟨hf, hs⟩ := unclassified_of_iff hn
    simp only [ofNotes, List.map_append, List.map_cons]
    exact ofAssets_unclassified hf hs
  · intro notes notes' h hperm hof
    exact exists_ofAssets_perm (hperm.map _) hof
  · intro front back h hof
    rw [ofNotes, List.map_append] at hof
    exact isSum_of_append hof

/-- Notes of every kind: two of a fungible token, two single tokens, and one that is of both kinds
and counts for its ether. -/
def mixedNotes : List Note :=
  [⟨.null, 1, ⟨2, .zero, 7, 0⟩⟩, ⟨.null, 2, ⟨0, ⟨6, by decide⟩, 0, 9⟩⟩,
   ⟨.null, 3, ⟨1, .zero, 5, 6⟩⟩, ⟨.null, 4, ⟨0, ⟨6, by decide⟩, 0, 3⟩⟩,
   ⟨.null, 5, ⟨0, .zero, 4, 0⟩⟩]

/-- The totals of these notes, in their order and the other way round, and of a part of them. -/
theorem ofNotes_exact_mixed :
    let held : Holdings := ⟨3, [(.zero, 11)], [(⟨6, by decide⟩, [9, 3])]⟩
    held.Exact (mixedNotes.map Note.asset) ∧
    ofNotes mixedNotes = ofNotes (mixedNotes.take 2 ++
      ⟨.null, 3, .ether 1⟩ :: mixedNotes.drop 3) ∧
    (∃ h', ofNotes mixedNotes.reverse = .ok h' ∧ h'.eth = 3 ∧ h'.fungible = [(.zero, 11)] ∧
      h'.single.keys = held.single.keys ∧ ∀ token, (held.idsOf token).Perm (h'.idsOf token)) ∧
    ∃ hfront hback, ofNotes (mixedNotes.take 2) = .ok hfront ∧
      ofNotes (mixedNotes.drop 2) = .ok hback ∧ held.IsSum hfront hback := by
  intro held
  have hof : ofNotes mixedNotes = .ok held := by decide +kernel
  obtain ⟨htotals, hether, hperm, hsum⟩ := ofNotes_exact
  exact ⟨(htotals mixedNotes).2 held hof,
    hether (mixedNotes.take 2) (mixedNotes.drop 3) ⟨.null, 3, ⟨1, .zero, 5, 6⟩⟩ (by decide),
    hperm mixedNotes _ held (List.reverse_perm _).symm hof,
    hsum (mixedNotes.take 2) (mixedNotes.drop 2) held hof⟩

end Holdings

end ShieldedWallet
