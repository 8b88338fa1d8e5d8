/-
The first notes of the pool that pay.

The choice of ether-only notes walks along a pool and stops at the first count
that pays.  So a plan is settled by numbers: the ether of the token notes, the
ether of the first notes of the pool, and what a plan takes at each count.  Two
builders are compared through the counts that pay for each.

* `SizeEstimate.Grows` — sizes that do not fall as a transaction grows, which the
  two in use do not (`SizeEstimate.Usual.grows`);
* `Builder.Pays` — the first notes of a pool, up to a count, pay beside the token
  notes chosen;
* `Builder.Pays.transfer` — what pays for one builder pays for a cheaper one;
* `Builder.exists_coverEther` — where some count pays, ether can be chosen, and
  the choice is no larger;
* `Builder.Reaches.isLeast_pays` — the count chosen is the least one that pays;
* `Builder.Prepares.exists_reaches` — where some count pays, all stages are
  reached;
* `Builder.Reaches.fee_eq_price` — the fee is the rate times the size at the count
  chosen.

Design notes: a count pays only if the price can be asked at every count before
it, since the walk asks for it there.  No bound on the pool is needed: notes that
the walk does not come to may hold any ether.
-/
import Mathlib.Order.Bounds.Basic
import ShieldedWallet.Proofs.FewestInputs

namespace ShieldedWallet

/-! ### Sizes that grow -/

/-- The size does not fall as inputs are added, nor as a swap is. -/
structure SizeEstimate.Grows (estimate : SizeEstimate) : Prop where
  inputs : ∀ {inputs inputs' : Nat}, inputs ≤ inputs' → ∀ outputs publicOutputs hasSwap hasMemo,
    estimate inputs outputs publicOutputs hasSwap hasMemo ≤
      estimate inputs' outputs publicOutputs hasSwap hasMemo
  swap : ∀ inputs outputs publicOutputs hasSwap hasMemo,
    estimate inputs outputs publicOutputs false hasMemo ≤
      estimate inputs outputs publicOutputs hasSwap hasMemo

/-- The size is that on the wire, or fixed. -/
inductive SizeEstimate.Usual : SizeEstimate → Prop
  | wire : Usual wireSize
  | fixed (bytes : Nat) : Usual (fixedSize bytes)

theorem SizeEstimate.Usual.grows {estimate : SizeEstimate} (h : estimate.Usual) :
    estimate.Grows := by
  cases h with
  | wire =>
    refine ⟨fun hle outputs publicOutputs hasSwap hasMemo => ?_,
      fun inputs outputs publicOutputs hasSwap hasMemo => ?_⟩
    · simp only [wireSize, estimateSize]
      omega
    · simp only [wireSize, estimateSize]
      cases hasSwap
      · exact Nat.le_refl _
      · simp
  | fixed bytes => exact ⟨fun _ _ _ _ _ => Nat.le_refl _, fun _ _ _ _ _ => Nat.le_refl _⟩

namespace Builder

/-! ### The walk along a pool -/

section Walk

variable {price : Nat → Except BuildError Price} {pool : List Utxo} {inputs : Nat}
  {gathered : Amount} {p : Price}

theorem coverEther_of_le (hp : price inputs = .ok p) (hle : p.required ≤ gathered) :
    coverEther price pool inputs gathered = .ok ⟨[], p.fee, gathered.monus p.required⟩ := by
  cases pool with
  | nil => exact Except.bind_eq_ok_iff.mpr ⟨p, hp, if_pos hle⟩
  | cons u pool => exact Except.bind_eq_ok_iff.mpr ⟨p, hp, if_pos hle⟩

theorem coverEther_cons {u : Utxo} {next : Amount} {c : EtherChoice} (hp : price inputs = .ok p)
    (hgt : ¬ p.required ≤ gathered) (hnext : gathered.add? u.asset.eth = some next)
    (hc : coverEther price pool (inputs + 1) next = .ok c) :
    coverEther price (u :: pool) inputs gathered = .ok { c with chosen := u :: c.chosen } := by
  refine Except.bind_eq_ok_iff.mpr ⟨p, hp, ?_⟩
  rw [if_neg hgt, hnext]
  exact Except.bind_eq_ok_iff.mpr ⟨c, hc, rfl⟩

/-- Where the first notes of a pool cover the price at their count, ether can be chosen, and no more
notes are. -/
theorem exists_coverEther {k : Nat} (hk : k ≤ pool.length)
    (hpriced : ∀ j ≤ k, ∃ p, price (inputs + j) = .ok p)
    (hfits : gathered.toNat + etherTotal (assetsOf (pool.take k)) < amountBound)
    (hcovers : ∀ p, price (inputs + k) = .ok p →
      p.required.toNat ≤ gathered.toNat + etherTotal (assetsOf (pool.take k))) :
    ∃ c, coverEther price pool inputs gathered = .ok c ∧ c.chosen.length ≤ k := by
  induction k generalizing pool inputs gathered with
  | zero =>
    obtain ⟨p, hp⟩ := hpriced 0 (Nat.le_refl 0)
    have hle : p.required ≤ gathered := hcovers p hp
    exact ⟨_, coverEther_of_le hp hle, Nat.le_refl 0⟩
  | succ k ih =>
    obtain ⟨p, hp⟩ := hpriced 0 (Nat.zero_le _)
    rw [Nat.add_zero] at hp
    -- the walk may stop right here; else it takes a note, and one less is to be taken
    by_cases hle : p.required ≤ gathered
    · exact ⟨_, coverEther_of_le hp hle, Nat.zero_le _⟩
    cases pool with
    | nil => exact absurd hk (Nat.not_succ_le_zero k)
    | cons u pool =>
      rw [List.take_succ_cons] at hfits hcovers
      obtain ⟨next, hnext⟩ : ∃ next, gathered.add? u.asset.eth = some next := by
        rw [assetsOf_cons, etherTotal_cons] at hfits
        rw [Amount.exists_add?_iff]
        omega
      rw [gathered_add_etherTotal_cons hnext] at hfits hcovers
      have hcount (j : Nat) : inputs + (j + 1) = inputs + 1 + j := by omega
      obtain ⟨c, hc, hlen⟩ := ih (Nat.le_of_succ_le_succ hk)
        (fun j hj => hcount j ▸ hpriced (j + 1) (Nat.succ_le_succ hj)) hfits
        (fun q hq => hcovers q ((hcount k).symm ▸ hq))
      exact ⟨_, coverEther_cons hp hle hnext hc, Nat.succ_le_succ hlen⟩

end Walk

/-! ### Prices as numbers -/

/-- The size at which a plan is priced, by its counts of token changes and of inputs. -/
def pricedSize (b : Builder) (changes inputs : Nat) : Nat :=
  b.estimate inputs (b.requests.length + changes + 1) (publicCount b.requests) b.swap.isSome false

theorem requiredEther_eq (b : Builder) (changes inputs : Nat) :
    b.requiredEther changes inputs = etherTotal (b.requests.map Outflow.asset) +
      externalTotal b.requests + b.rate.toNat * b.pricedSize changes inputs := rfl

theorem externalTotal_tokenOutflow (b : Builder) (salt : Nat → Felt) (surplus : List Asset) :
    externalTotal (b.tokenOutflow salt surplus) = externalTotal b.requests := by
  rw [tokenOutflow, externalTotal_append, externalTotal_changeOutputs, Nat.add_zero]

section Price

variable {b : Builder} {salt : Nat → Felt} {t : Preparation} {st : Stages} {n : Nat} {p : Price}

theorem priceAt_tokenOutflow (b : Builder) (salt : Nat → Felt) (sentEther externalFee : Amount)
    (surplus : List Asset) (n : Nat) :
    b.priceAt sentEther externalFee (b.tokenOutflow salt surplus) n =
      priceOf b.rate sentEther externalFee (b.pricedSize surplus.length n) := by
  rw [priceAt, pricedSize, tokenOutflow, List.length_append, length_changeOutputs,
    publicCount_append, publicCount_changeOutputs, Nat.add_zero (publicCount _)]

/-- The price can be asked exactly where what a plan takes fits 256 bits. -/
theorem Prepares.exists_price_iff (h : b.Prepares salt t) :
    (∃ p, b.priceAt t.asked.eth t.externalFee (b.tokenOutflow salt t.surplus) n = .ok p) ↔
      b.requiredEther t.surplus.length n < amountBound := by
  constructor
  · rintro ⟨p, hp⟩
    exact h.required_eq hp ▸ p.required.isLt
  · intro hlt
    have hfee : b.rate.toNat * b.pricedSize t.surplus.length n < amountBound := by
      rw [requiredEther_eq] at hlt
      omega
    refine ⟨⟨⟨_, hfee⟩, ⟨_, hlt⟩⟩, ?_⟩
    rw [priceAt_tokenOutflow, priceOf_eq_ok_iff]
    refine ⟨rfl, ?_⟩
    show b.requiredEther t.surplus.length n = t.asked.eth.toNat +
      b.rate.toNat * b.pricedSize t.surplus.length n + t.externalFee.toNat
    rw [requiredEther_eq, h.tallies.eth, h.externalFee_eq]
    omega

/-- The fee is the rate times the size at the count of inputs. -/
theorem Reaches.fee_eq_price (h : b.Reaches salt st) :
    (b.planOf salt st).fee.toNat = b.rate.toNat *
      b.pricedSize st.surplus.length (st.tokens.chosen.length + st.ether.chosen.length) := by
  obtain ⟨p, hp, hfee, -⟩ := (coverEther_ok h.ether).priced
  rw [priceAt_tokenOutflow] at hp
  exact (congrArg Amount.toNat hfee).trans (priceOf_eq_ok_iff.mp hp).1

end Price

/-! ### Counts that pay -/

/-- The first notes of a pool, up to a count, pay beside the token notes chosen: they cover what a
plan takes at their count, the price can be asked at each count up to theirs, and what is gathered
fits 256 bits. -/
structure Pays (b : Builder) (t : Preparation) (pool : List Utxo) (k : Nat) : Prop where
  le_length : k ≤ pool.length
  priced : ∀ j ≤ k, b.requiredEther t.surplus.length (t.tokens.chosen.length + j) < amountBound
  fits : etherTotal (assetsOf t.tokens.chosen) + etherTotal (assetsOf (pool.take k)) < amountBound
  covers : b.requiredEther t.surplus.length (t.tokens.chosen.length + k) ≤
    etherTotal (assetsOf t.tokens.chosen) + etherTotal (assetsOf (pool.take k))

section Pays

variable {b b' : Builder} {salt : Nat → Felt} {t t' : Preparation} {st : Stages}
  {pool pool' : List Utxo} {k : Nat}

/-- A count that pays for one builder pays for another that takes no more at any count, beside token
notes of the same count and ether, from a pool whose first notes are worth no less. -/
theorem Pays.transfer (hk : b.Pays t pool k)
    (hrequired : ∀ n, b'.requiredEther t'.surplus.length n ≤ b.requiredEther t.surplus.length n)
    (hcount : t'.tokens.chosen.length = t.tokens.chosen.length)
    (hether : etherTotal (assetsOf t'.tokens.chosen) = etherTotal (assetsOf t.tokens.chosen))
    (hlength : k ≤ pool'.length)
    (hworth : etherTotal (assetsOf (pool.take k)) ≤ etherTotal (assetsOf (pool'.take k)))
    (hfits : etherTotal (assetsOf t'.tokens.chosen) + etherTotal (assetsOf (pool'.take k)) <
      amountBound) :
    b'.Pays t' pool' k := by
  refine ⟨hlength, fun j hj => ?_, hfits, ?_⟩
  · rw [hcount]
    exact Nat.lt_of_le_of_lt (hrequired _) (hk.priced j hj)
  · rw [hcount, hether]
    exact Nat.le_trans (hrequired _)
      (Nat.le_trans hk.covers (Nat.add_le_add_left hworth _))

theorem Prepares.exists_chooseEther (h : b.Prepares salt t)
    (hk : b.Pays t (etherPool t.tokens.left) k) :
    ∃ c, b.chooseEther salt t = .ok c ∧ c.chosen.length ≤ k := by
  have hgathered := h.gathered_eq
  refine exists_coverEther hk.le_length (fun j hj => h.exists_price_iff.mpr (hk.priced j hj)) ?_ ?_
  · rw [hgathered]
    exact hk.fits
  · intro p hp
    rw [hgathered, h.required_eq hp]
    exact hk.covers

/-- Where some count pays, all stages are reached. -/
theorem Prepares.exists_reaches (h : b.Prepares salt t)
    (hk : b.Pays t (etherPool t.tokens.left) k) :
    ∃ st, b.Reaches salt st ∧ st.preparation = t := by
  obtain ⟨c, hc, -⟩ := h.exists_chooseEther hk
  exact ⟨⟨t.asked, t.tokens, t.surplus, t.externalFee, t.gathered, c⟩,
    ⟨h.asked, h.tokens, h.surplus, h.externalFee, h.gathered, hc⟩, rfl⟩

theorem Reaches.chosen_eq_take (h : b.Reaches salt st) :
    st.ether.chosen = (etherPool st.tokens.left).take st.ether.chosen.length :=
  List.prefix_iff_eq_take.mp (coverEther_ok h.ether).isPrefix

theorem Reaches.pays (h : b.Reaches salt st) :
    b.Pays st.preparation (etherPool st.tokens.left) st.ether.chosen.length := by
  have hprepares := h.prepares
  have hcovers := coverEther_ok h.ether
  have hgathered := h.gathered_eq
  have htake := h.chosen_eq_take.symm
  obtain ⟨p, hp, -, hcover⟩ := hcovers.priced
  have hrequired := hprepares.required_eq hp
  refine ⟨hcovers.isPrefix.length_le, fun j hj => hprepares.exists_price_iff.mp ?_, ?_, ?_⟩
  · rcases Nat.lt_or_eq_of_le hj with hlt | rfl
    · obtain ⟨q, hq, -⟩ := hcovers.shorter j hlt
      exact ⟨q, hq⟩
    · exact ⟨p, hp⟩
  · rw [htake, Stages.preparation, ← hgathered]
    exact hcovers.fits
  · rw [htake, Stages.preparation, ← hgathered, hcover]
    exact Nat.le_add_right_of_le (Nat.le_of_eq hrequired.symm)

/-- The count of ether-only notes chosen is the least one that pays. -/
theorem Reaches.isLeast_pays (h : b.Reaches salt st) :
    IsLeast {k | b.Pays st.preparation (etherPool st.tokens.left) k} st.ether.chosen.length := by
  refine ⟨h.pays, fun k hk => ?_⟩
  obtain ⟨c, hc, hle⟩ := h.prepares.exists_chooseEther hk
  obtain rfl : st.ether = c := Except.ok.inj (h.ether.symm.trans hc)
  exact hle

end Pays

end Builder

end ShieldedWallet
