/-
The fewest inputs of ether.

Ether-only notes are taken largest first, and the price is asked anew at each
count of inputs.  Since the price moves with the count, a choice is compared
with others of its own size: no notes of a given count are worth more than the
largest ones, and the largest ones fell short at every count before the last.
This holds for any estimate of sizes, also one that falls as inputs are added.

* `Builder.requiredEther` — the ether that a plan takes, by its count of inputs;
* `Builder.FallsShort` — ether-only notes that do not make up for it, beside the
  token notes chosen;
* `etherTotal_le_take` — the largest notes of a pool are worth as much as any
  others of their count;
* `Builder.build_fewestInputs` — a plan built takes the largest notes, and any
  fewer notes fall short; where ether is reported to lack, all choices do.
-/
import Mathlib.Data.List.Perm.Subperm
import ShieldedWallet.Proofs.Pricing

namespace ShieldedWallet

/-! ### The largest notes of a pool -/

/-- The notes are part of a pool, and no note left in the pool is worth more than one of them. -/
def LargestOf (notes pool : List Utxo) : Prop :=
  ∃ rest, (notes ++ rest).Perm pool ∧ ∀ u ∈ notes, ∀ v ∈ rest, v.asset.eth ≤ u.asset.eth

/-- Notes of larger amounts stand first. -/
def Descending (pool : List Utxo) : Prop := pool.Pairwise fun u v => v.asset.eth ≤ u.asset.eth

section Pool

variable {pool notes : List Utxo} {u : Utxo}

theorem etherTotal_eq_of_perm {us vs : List Utxo} (h : us.Perm vs) :
    etherTotal (assetsOf us) = etherTotal (assetsOf vs) := by
  have hamounts : ((assetsOf us).map fun a => a.eth.toNat).Perm
      ((assetsOf vs).map fun a => a.eth.toNat) := (h.map Utxo.asset).map _
  exact hamounts.sum_nat

/-- One note more of a pool is worth no more than a note that none of the pool exceeds. -/
theorem etherTotal_take_succ_le (hmax : ∀ v ∈ pool, v.asset.eth ≤ u.asset.eth) (n : Nat) :
    etherTotal (assetsOf (pool.take (n + 1))) ≤
      u.asset.eth.toNat + etherTotal (assetsOf (pool.take n)) := by
  rw [List.take_add_one, assetsOf_append, etherTotal_append]
  cases hv : pool[n]? with
  | none =>
    show _ + 0 ≤ _
    omega
  | some v =>
    have hle : v.asset.eth.toNat ≤ u.asset.eth.toNat := hmax v (List.mem_of_getElem? hv)
    show _ + (v.asset.eth.toNat + 0) ≤ _
    omega

theorem etherTotal_le_take_of_sublist (hpool : Descending pool) (h : notes.Sublist pool) :
    etherTotal (assetsOf notes) ≤ etherTotal (assetsOf (pool.take notes.length)) := by
  induction h with
  | slnil => exact Nat.le_refl 0
  | @cons notes pool u _ ih =>
    obtain ⟨hmax, hrest⟩ := List.pairwise_cons.mp hpool
    have hnotes := ih hrest
    -- the notes may all be taken behind the largest one, which is then worth the last of them
    cases hlen : notes.length with
    | zero =>
      rw [List.eq_nil_of_length_eq_zero hlen]
      exact Nat.le_refl 0
    | succ n =>
      rw [hlen] at hnotes
      have hstep := etherTotal_take_succ_le hmax n
      rw [List.take_succ_cons, assetsOf_cons, etherTotal_cons]
      omega
  | @cons_cons notes pool u _ ih =>
    have hnotes := ih (List.pairwise_cons.mp hpool).2
    rw [List.length_cons, List.take_succ_cons, assetsOf_cons, assetsOf_cons, etherTotal_cons,
      etherTotal_cons]
    omega

/-- The largest notes of a pool are worth as much as any others of their count. -/
theorem etherTotal_le_take (hpool : Descending pool) (h : notes.Subperm pool) :
    etherTotal (assetsOf notes) ≤ etherTotal (assetsOf (pool.take notes.length)) := by
  obtain ⟨ordered, hperm, hsublist⟩ := h
  have hordered := etherTotal_le_take_of_sublist hpool hsublist
  rwa [etherTotal_eq_of_perm hperm, hperm.length_eq] at hordered

theorem largestOf_front {ordered : List Utxo} (hordered : Descending ordered)
    (hperm : ordered.Perm pool) (h : notes <+: ordered) : LargestOf notes pool := by
  obtain ⟨rest, rfl⟩ := h
  exact ⟨rest, hperm, (List.pairwise_append.mp hordered).2.2⟩

end Pool

namespace Builder

theorem etherPool_perm (available : List Utxo) :
    (etherPool available).Perm (available.filter fun u => u.asset.isEtherOnly) :=
  (List.reverse_perm _).trans (List.mergeSort_perm _ _)

theorem etherPool_descending (available : List Utxo) : Descending (etherPool available) := by
  rw [Descending, etherPool, List.pairwise_reverse]
  exact Amount.pairwise_mergeSort (fun u : Utxo => u.asset.eth) _

/-! ### Token notes hold tokens -/

theorem selectTokens_etherOnly {asked : Holdings} {available : List Utxo} {s : Selection}
    {requested : List Asset} (hasked : asked.Tallies requested)
    (h : selectTokens available asked = .ok s) : ∀ u ∈ s.chosen, u.asset.isEtherOnly = false := by
  obtain ⟨coins, singles, hcoins, hsingles, rfl⟩ := selectTokens_eq_ok_iff.mp h
  obtain ⟨-, hholds, -⟩ := selectFungibles_ok hcoins
  obtain ⟨-, hsingle, -⟩ := selectAllSingles_ok hasked.single_ascending hsingles
  intro u hu
  rcases List.mem_append.mp hu with hu | hu
  · obtain ⟨token, -, hu⟩ := hholds u hu
    have hfungible := (holdsFungible_iff.mp hu).1
    simp_all [Asset.isFungible, Asset.isEtherOnly]
  · have hu := hsingle u hu
    simp_all [Asset.isSingle, Asset.isEtherOnly]

/-! ### Requirements -/

/-- The ether-only notes at hand. -/
def etherNotes (b : Builder) : List Utxo := b.notes.filter fun u => u.asset.isEtherOnly

/-- The ether that a plan takes in exact arithmetic: what is sent, the fees on the base ledger, and
the fee at a count of inputs, for the requests, the change of tokens and one output reserved. -/
def requiredEther (b : Builder) (changes inputs : Nat) : Nat :=
  etherTotal (b.requests.map Outflow.asset) + externalTotal b.requests +
    b.rate.toNat * b.estimate inputs (b.requests.length + changes + 1) (publicCount b.requests)
      b.swap.isSome false

/-- Ether-only notes beside the token notes chosen do not make up for what a plan of them takes. -/
def FallsShort (b : Builder) (t : Preparation) (notes : List Utxo) : Prop :=
  etherTotal (assetsOf t.tokens.chosen) + etherTotal (assetsOf notes) <
    b.requiredEther t.surplus.length (t.tokens.chosen.length + notes.length)

section Preparation

variable {b : Builder} {salt : Nat → Felt} {t : Preparation}

theorem Prepares.externalFee_eq (h : b.Prepares salt t) :
    t.externalFee.toNat = externalTotal b.requests := by
  rw [externalFees?_eq_some_iff.mp h.externalFee, tokenOutflow, externalTotal_append,
    externalTotal_changeOutputs, Nat.add_zero]

/-- The price asked at a count of inputs is the exact requirement. -/
theorem Prepares.required_eq (h : b.Prepares salt t) {n : Nat} {p : Price}
    (hp : b.priceAt t.asked.eth t.externalFee (b.tokenOutflow salt t.surplus) n = .ok p) :
    p.required.toNat = b.requiredEther t.surplus.length n := by
  obtain ⟨hfee, hrequired⟩ := priceOf_eq_ok_iff.mp hp
  have hlength : (b.tokenOutflow salt t.surplus).length = b.requests.length + t.surplus.length := by
    rw [tokenOutflow, List.length_append, length_changeOutputs]
  have hpublic : publicCount (b.tokenOutflow salt t.surplus) = publicCount b.requests := by
    rw [tokenOutflow, publicCount_append, publicCount_changeOutputs, Nat.add_zero]
  rw [hrequired, hfee, h.tallies.eth, h.externalFee_eq, hlength, hpublic, requiredEther]
  omega

/-- The token notes chosen are none of the ether-only ones. -/
theorem Prepares.filter_chosen (h : b.Prepares salt t) :
    t.tokens.chosen.filter (fun u => u.asset.isEtherOnly) = [] := by
  refine List.filter_eq_nil_iff.mpr fun u hu => ?_
  rw [selectTokens_etherOnly h.tallies h.tokens u hu]
  exact Bool.false_ne_true

/-- The pool is what there is of ether-only notes, in descending order. -/
theorem Prepares.pool_perm (h : b.Prepares salt t) :
    (etherPool t.tokens.left).Perm b.etherNotes := by
  obtain ⟨hparts, -⟩ := selectTokens_ok h.tallies h.tokens
  have hfilter : ((t.tokens.chosen ++ t.tokens.left).filter fun u => u.asset.isEtherOnly).Perm
      b.etherNotes := hparts.filter _
  rw [List.filter_append, h.filter_chosen, List.nil_append] at hfilter
  exact (etherPool_perm t.tokens.left).trans hfilter

/-- Where the largest notes of a count fall short, all notes of that count do. -/
theorem Prepares.fallsShort (h : b.Prepares salt t) {notes : List Utxo}
    (hnotes : notes.Subperm b.etherNotes)
    (hshort : ∃ p, b.priceAt t.asked.eth t.externalFee (b.tokenOutflow salt t.surplus)
        (t.tokens.chosen.length + notes.length) = .ok p ∧
      t.gathered.toNat + etherTotal (assetsOf ((etherPool t.tokens.left).take notes.length)) <
        p.required.toNat) :
    b.FallsShort t notes := by
  obtain ⟨p, hp, hlt⟩ := hshort
  have hlargest := etherTotal_le_take (etherPool_descending t.tokens.left)
    (h.pool_perm.subperm_left.mpr hnotes)
  rw [h.required_eq hp, h.gathered_eq] at hlt
  rw [FallsShort]
  omega

end Preparation

/-! ### The pool runs out -/

/-- The whole pool is taken and the price is still not covered, at no count on the way. -/
structure Exhausts (price : Nat → Except BuildError Price) (pool : List Utxo) (inputs : Nat)
    (gathered required available deficit : Amount) : Prop where
  priced : ∃ p, price (inputs + pool.length) = .ok p ∧ p.required = required
  available_eq : available.toNat = gathered.toNat + etherTotal (assetsOf pool)
  deficit_eq : deficit.toNat = required.toNat - available.toNat
  short : ∀ k ≤ pool.length, ∃ p, price (inputs + k) = .ok p ∧
    gathered.toNat + etherTotal (assetsOf (pool.take k)) < p.required.toNat

section Exhausts

variable {price : Nat → Except BuildError Price} {pool : List Utxo} {inputs : Nat}
  {gathered required available deficit : Amount}

theorem Exhausts.cons {u : Utxo} {next : Amount} {p : Price} (hp : price inputs = .ok p)
    (hlt : gathered < p.required) (hnext : gathered.add? u.asset.eth = some next)
    (h : Exhausts price pool (inputs + 1) next required available deficit) :
    Exhausts price (u :: pool) inputs gathered required available deficit := by
  have hether := gathered_add_etherTotal_cons hnext
  -- the rest of the pool is counted from one input more
  have hcount (k : Nat) : inputs + (k + 1) = inputs + 1 + k := by omega
  refine ⟨?_, ?_, h.deficit_eq, fun k hk => ?_⟩
  · rw [List.length_cons, hcount]
    exact h.priced
  · rw [hether]
    exact h.available_eq
  · cases k with
    | zero => exact ⟨p, hp, hlt⟩
    | succ k =>
      obtain ⟨q, hq, hlt⟩ := h.short k (Nat.le_of_succ_le_succ hk)
      rw [hcount, List.take_succ_cons, hether]
      exact ⟨q, hq, hlt⟩

theorem coverEther_insufficient (hprice : ∀ n, FailsOnly PriceFailure (price n))
    (h : coverEther price pool inputs gathered =
      .error (.insufficientEther required available deficit)) :
    Exhausts price pool inputs gathered required available deficit := by
  -- a price that fails reports no lack of ether
  have hpriced (n : Nat) : price n ≠ .error (.insufficientEther required available deficit) :=
    fun hn => nomatch hprice n _ hn
  induction pool generalizing inputs gathered with
  | nil =>
    rcases Except.bind_eq_error_iff.mp h with h | ⟨p, hp, h⟩
    · exact absurd h (hpriced inputs)
    · split at h
      case isTrue => cases h
      case isFalse hgt =>
        cases h
        refine ⟨⟨p, hp, rfl⟩, rfl, rfl, fun k hk => ?_⟩
        obtain rfl := Nat.le_zero.mp hk
        exact ⟨p, hp, Nat.lt_of_not_le hgt⟩
  | cons u pool ih =>
    rcases Except.bind_eq_error_iff.mp h with h | ⟨p, hp, h⟩
    · exact absurd h (hpriced inputs)
    · split at h
      case isTrue => cases h
      case isFalse hgt =>
        cases hnext : gathered.add? u.asset.eth with
        | none =>
          simp only [hnext] at h
          cases h
        | some next =>
          simp only [hnext] at h
          rcases Except.bind_eq_error_iff.mp h with h | ⟨_, -, hpure⟩
          · exact .cons hp (Nat.lt_of_not_le hgt) hnext (ih h)
          · cases hpure

end Exhausts

/-! ### Building -/

/-- The ether-only inputs of a plan. -/
def etherInputs (plan : Plan) : List Utxo := plan.inflow.filter fun u => u.asset.isEtherOnly

section Stages

variable {b : Builder} {salt : Nat → Felt} {st : Stages}

theorem Reaches.etherInputs_eq (h : b.Reaches salt st) :
    etherInputs (b.planOf salt st) = st.ether.chosen := by
  have hchosen : st.tokens.chosen.filter (fun u => u.asset.isEtherOnly) = [] :=
    h.prepares.filter_chosen
  have hether : st.ether.chosen.filter (fun u => u.asset.isEtherOnly) = st.ether.chosen :=
    List.filter_eq_self.mpr fun u hu =>
      (mem_etherPool.mp ((coverEther_ok h.ether).isPrefix.subset hu)).2
  rw [etherInputs, planOf, List.filter_append, hchosen, hether, List.nil_append]

/-- The ether-only notes chosen cover the requirement at their count, and fewer notes do not at
theirs. -/
theorem Reaches.fewest (h : b.Reaches salt st) :
    LargestOf st.ether.chosen b.etherNotes ∧ ¬ b.FallsShort st.preparation st.ether.chosen ∧
      ∀ notes : List Utxo, notes.Subperm b.etherNotes → notes.length < st.ether.chosen.length →
        b.FallsShort st.preparation notes := by
  have hprepares := h.prepares
  have hcovers := coverEther_ok h.ether
  refine ⟨largestOf_front (etherPool_descending _) hprepares.pool_perm hcovers.isPrefix, ?_, ?_⟩
  · obtain ⟨p, hp, -, hcover⟩ := hcovers.priced
    have hrequired : p.required.toNat = b.requiredEther st.surplus.length
        (st.tokens.chosen.length + st.ether.chosen.length) := hprepares.required_eq hp
    rw [hrequired, h.gathered_eq] at hcover
    show ¬ etherTotal (assetsOf st.tokens.chosen) + etherTotal (assetsOf st.ether.chosen) <
      b.requiredEther st.surplus.length (st.tokens.chosen.length + st.ether.chosen.length)
    omega
  · intro notes hnotes hlen
    have htake : st.ether.chosen.take notes.length =
        (etherPool st.tokens.left).take notes.length := by
      rw [List.prefix_iff_eq_take.mp hcovers.isPrefix, List.take_take,
        Nat.min_eq_left (Nat.le_of_lt hlen)]
    have hshort := hcovers.shorter notes.length hlen
    rw [htake] at hshort
    exact hprepares.fallsShort hnotes hshort

end Stages

/-- A plan built takes, beside the token notes, the largest ether-only notes at hand, and any fewer
of them fall short of the requirement at their own count.  Where building fails for lack of ether,
any ether-only notes at hand fall short, and what is reported is the requirement at all of them,
what they hold with the token notes, and the difference. -/
theorem build_fewestInputs (b : Builder) (salt : Nat → Felt) :
    (∀ plan, b.build salt = .ok plan → ∃ t, b.Prepares salt t ∧
      plan.inflow = t.tokens.chosen ++ etherInputs plan ∧
        LargestOf (etherInputs plan) b.etherNotes ∧ ¬ b.FallsShort t (etherInputs plan) ∧
          ∀ notes : List Utxo, notes.Subperm b.etherNotes →
            notes.length < (etherInputs plan).length → b.FallsShort t notes) ∧
      ∀ required available deficit,
        b.build salt = .error (.insufficientEther required available deficit) →
          ∃ t, b.Prepares salt t ∧
            (∀ notes : List Utxo, notes.Subperm b.etherNotes → b.FallsShort t notes) ∧
              available.toNat =
                  etherTotal (assetsOf t.tokens.chosen) + etherTotal (assetsOf b.etherNotes) ∧
                required.toNat = b.requiredEther t.surplus.length
                    (t.tokens.chosen.length + b.etherNotes.length) ∧
                  available.toNat + deficit.toNat = required.toNat := by
  rw [build_eq_draft]
  constructor
  · intro plan hplan
    obtain ⟨st, hst, rfl⟩ := draft_eq_ok_iff.mp hplan
    rw [hst.etherInputs_eq]
    exact ⟨_, hst.prepares, rfl, hst.fewest⟩
  · intro required available deficit herror
    obtain ⟨t, ht, hether⟩ := chooseEther_of_draft herror
    have hexhausts := coverEther_insufficient (fun _ => priceOf_failsOnly _ _ _ _) hether
    have hlength := ht.pool_perm.length_eq
    have havailable : available.toNat =
        etherTotal (assetsOf t.tokens.chosen) + etherTotal (assetsOf b.etherNotes) := by
      rw [hexhausts.available_eq, ht.gathered_eq, etherTotal_eq_of_perm ht.pool_perm]
    have hrequired : required.toNat = b.requiredEther t.surplus.length
        (t.tokens.chosen.length + b.etherNotes.length) := by
      obtain ⟨p, hp, rfl⟩ := hexhausts.priced
      rw [ht.required_eq hp, hlength]
    have hall : ∀ notes : List Utxo, notes.Subperm b.etherNotes → b.FallsShort t notes := by
      intro notes hnotes
      exact ht.fallsShort hnotes (hexhausts.short _ (hlength ▸ hnotes.length_le))
    have hwhole := hall b.etherNotes (List.Subperm.refl _)
    have hdeficit := hexhausts.deficit_eq
    rw [FallsShort] at hwhole
    refine ⟨t, ht, hall, havailable, hrequired, ?_⟩
    omega

/-- A builder at ten for each byte whose two notes of ether are dust: each costs more than it is
worth. -/
def dustyBuilder : Builder where
  changeTo := .null
  rate := 10
  estimate := wireSize
  swap := none
  notes := [looseNote (.ether 7), looseNote (.ether 9)]
  requests := [plainOutput .null 1 (.ether 100)]

/-- The outcomes for `dustyBuilder` before ether is chosen. -/
def dustyPreparation : Preparation :=
  ⟨⟨100, [], []⟩, ⟨[], [looseNote (.ether 7), looseNote (.ether 9)]⟩, [], 0, 0⟩

theorem dustyBuilder_prepares : dustyBuilder.Prepares (fun _ => 0) dustyPreparation :=
  ⟨rfl, rfl, rfl, rfl, rfl⟩

theorem dustyBuilder_chooseEther : dustyBuilder.chooseEther (fun _ => 0) dustyPreparation =
    .error (.insufficientEther 4950 16 4934) := by
  have hpool : etherPool dustyPreparation.tokens.left =
      [looseNote (.ether 9), looseNote (.ether 7)] :=
    congrArg List.reverse (List.mergeSort_of_pairwise (by decide))
  rw [chooseEther, hpool]
  rfl

/-- The dearer of two notes pays for `mixedBuilder`, and its tokens alone do not; all the dust of
`dustyBuilder` does not pay, nor does the dearest grain. -/
theorem build_fewestInputs_dust :
    (∃ plan t, mixedBuilder.build (fun _ => 0) = .ok plan ∧ mixedBuilder.Prepares (fun _ => 0) t ∧
        etherInputs plan = [looseNote (.ether 20000)] ∧ mixedBuilder.FallsShort t []) ∧
      ∃ t, dustyBuilder.build (fun _ => 0) = .error (.insufficientEther 4950 16 4934) ∧
        dustyBuilder.Prepares (fun _ => 0) t ∧ dustyBuilder.FallsShort t [looseNote (.ether 9)] ∧
          dustyBuilder.requiredEther t.surplus.length (t.tokens.chosen.length + 2) = 4950 := by
  have hbuild := (build_eq_draft _ _).trans (draft_eq_ok_iff.mpr ⟨_, mixedBuilder_reaches, rfl⟩)
  have herror := (build_eq_draft _ _).trans
    (dustyBuilder_prepares.draft_eq_error dustyBuilder_chooseEther)
  obtain ⟨t, ht, -, -, -, hfewer⟩ := (build_fewestInputs _ _).1 _ hbuild
  obtain ⟨t', ht', hall, -, hrequired, -⟩ := (build_fewestInputs _ _).2 _ _ _ herror
  have hgrain : [looseNote (.ether 9)].Subperm dustyBuilder.etherNotes :=
    (List.singleton_sublist.mpr (by decide)).subperm
  exact ⟨⟨_, t, hbuild, ht, rfl, hfewer [] List.nil_subperm Nat.one_pos⟩,
    t', herror, ht', hall _ hgrain, hrequired.symm⟩

end Builder

end ShieldedWallet
