/-
How building fails.

Each stage of building has failures of its own: the totals of notes, the choice
of token notes, the price, and the choice of ether-only notes.  Only the last
one reports a lack of ether, and none reports an imbalance.

* `Builder.FailsOnly` — all failures of a step are of one kind;
* `Builder.TokenFailure`, `Builder.PriceFailure`, `Builder.EtherFailure` — the
  kinds of the stages;
* `Builder.Preparation`, `Builder.Prepares` — the outcomes of the stages before
  ether is chosen;
* `Builder.draft_eq_error` — where a draft that is not made stops.

Design notes: the kinds are relations and not lists of causes, so that what a
stage cannot report is seen by cases.
-/
import ShieldedWallet.Proofs.Building

namespace ShieldedWallet.Builder

/-! ### Kinds of failures -/

/-- Every failure of the step is of the given kind. -/
def FailsOnly {α : Type} (kind : BuildError → Prop) (x : Except BuildError α) : Prop :=
  ∀ e, x = .error e → kind e

section FailsOnly

variable {α β : Type} {kind kind' : BuildError → Prop} {x : Except BuildError α}

theorem FailsOnly.ok (a : α) : FailsOnly kind (.ok a) := fun _ h => nomatch h

theorem FailsOnly.error {e : BuildError} (h : kind e) :
    FailsOnly kind (.error e : Except BuildError α) := by
  intro e' he
  obtain rfl := Except.error.inj he
  exact h

theorem FailsOnly.bind {f : α → Except BuildError β} (hx : FailsOnly kind x)
    (hf : ∀ a, FailsOnly kind (f a)) : FailsOnly kind (x >>= f) := by
  intro e h
  rcases Except.bind_eq_error_iff.mp h with h | ⟨a, -, h⟩
  · exact hx e h
  · exact hf a e h

theorem FailsOnly.mono (hx : FailsOnly kind x) (h : ∀ e, kind e → kind' e) : FailsOnly kind' x :=
  fun e he => h e (hx e he)

end FailsOnly

/-- The token notes at hand do not do. -/
inductive TokenFailure : BuildError → Prop
  | insufficient (token required available deficit) :
    TokenFailure (.insufficientFungible token required available deficit)
  | notEnough (token required available) : TokenFailure (.notEnoughSingles token required available)
  | notFound (token tokenId) : TokenFailure (.singleNotFound token tokenId)
  | overflow : TokenFailure (.overflow .fungible)

/-- The price does not fit 256 bits. -/
inductive PriceFailure : BuildError → Prop
  | fee : PriceFailure (.overflow .fee)
  | required : PriceFailure (.overflow .requiredEther)

/-- The ether-only notes do not do, or cannot be priced or added up. -/
inductive EtherFailure : BuildError → Prop
  | price {e} (h : PriceFailure e) : EtherFailure e
  | selected : EtherFailure (.overflow .selectedEther)
  | insufficient (required available deficit) :
    EtherFailure (.insufficientEther required available deficit)

/-! ### Token notes -/

theorem takeUntil_failsOnly (asked gathered : Amount) (us : List Utxo) :
    FailsOnly TokenFailure (takeUntil asked gathered us) := by
  induction us generalizing gathered with
  | nil => exact .ok _
  | cons u us ih =>
    rw [takeUntil]
    split
    · exact .ok _
    · split
      · exact .error .overflow
      · exact (ih _).bind fun _ => .ok _

theorem selectFungible_failsOnly (available : List Utxo) (token : LedgerAddress)
    (asked : Amount) : FailsOnly TokenFailure (selectFungible available token asked) := by
  refine (takeUntil_failsOnly _ _ _).bind fun r => ?_
  dsimp only
  split
  · exact .error (.insufficient _ _ _ _)
  · exact .ok _

theorem selectFungibles_failsOnly (available : List Utxo) (asked : TokenMap Amount) :
    FailsOnly TokenFailure (selectFungibles available asked) := by
  induction asked generalizing available with
  | nil => exact .ok _
  | cons e rest ih =>
    exact (selectFungible_failsOnly _ _ _).bind fun _ => (ih _).bind fun _ => .ok _

theorem takeSingles_failsOnly (token : LedgerAddress) (available : List Utxo)
    (ids : List Amount) : FailsOnly TokenFailure (takeSingles token available ids) := by
  induction ids generalizing available with
  | nil => exact .ok _
  | cons id ids ih =>
    rw [takeSingles]
    split
    · exact .error (.notFound _ _)
    · split
      · exact .error (.notFound _ _)
      · exact (ih _).bind fun _ => .ok _

theorem selectSingles_failsOnly (available : List Utxo) (token : LedgerAddress)
    (ids : List Amount) : FailsOnly TokenFailure (selectSingles available token ids) := by
  rw [selectSingles]
  split
  · exact .error (.notEnough _ _ _)
  · exact takeSingles_failsOnly _ _ _

theorem selectAllSingles_failsOnly (available : List Utxo) (asked : TokenMap (List Amount)) :
    FailsOnly TokenFailure (selectAllSingles available asked) := by
  induction asked generalizing available with
  | nil => exact .ok _
  | cons e rest ih =>
    exact (selectSingles_failsOnly _ _ _).bind fun _ => (ih _).bind fun _ => .ok _

theorem selectTokens_failsOnly (available : List Utxo) (asked : Holdings) :
    FailsOnly TokenFailure (selectTokens available asked) :=
  (selectFungibles_failsOnly _ _).bind fun _ =>
    (selectAllSingles_failsOnly _ _).bind fun _ => .ok _

/-! ### Ether -/

theorem priceOf_failsOnly (rate sentEther externalFee : Amount) (size : Nat) :
    FailsOnly PriceFailure (priceOf rate sentEther externalFee size) := by
  rw [priceOf]
  split
  · exact .error .fee
  · split
    · exact .error .required
    · exact .ok _

theorem coverEther_failsOnly {price : Nat → Except BuildError Price}
    (hprice : ∀ n, FailsOnly PriceFailure (price n)) (pool : List Utxo) (inputs : Nat)
    (gathered : Amount) : FailsOnly EtherFailure (coverEther price pool inputs gathered) := by
  have hpriced (n : Nat) : FailsOnly EtherFailure (price n) := (hprice n).mono fun _ => .price
  induction pool generalizing inputs gathered with
  | nil =>
    refine (hpriced inputs).bind fun p => ?_
    split
    · exact .ok _
    · exact .error (.insufficient _ _ _)
  | cons u pool ih =>
    refine (hpriced inputs).bind fun p => ?_
    split
    · exact .ok _
    · split
      · exact .error .selected
      · exact (ih _ _).bind fun _ => .ok _

/-! ### Drafts -/

/-- The outcomes of the stages before ether is chosen: the totals of the requests, the token notes
chosen, the token surplus, the fees on the base ledger, and the ether of the token notes. -/
structure Preparation where
  asked : Holdings
  tokens : Selection
  surplus : List Asset
  externalFee : Amount
  gathered : Amount

/-- The stages before ether is chosen end with the given outcomes. -/
structure Prepares (b : Builder) (salt : Nat → Felt) (t : Preparation) : Prop where
  asked : Holdings.ofNotes (b.requests.map Outflow.note) = .ok t.asked
  tokens : selectTokens b.notes t.asked = .ok t.tokens
  surplus : tokenSurplus t.tokens.chosen t.asked = .ok t.surplus
  externalFee : externalFees? (b.tokenOutflow salt t.surplus) = some t.externalFee
  gathered : Amount.sum? (t.tokens.chosen.map fun u => u.asset.eth) = some t.gathered

/-- The outcomes of all stages but the last. -/
def Stages.preparation (st : Stages) : Preparation :=
  ⟨st.asked, st.tokens, st.surplus, st.externalFee, st.gathered⟩

/-- The choice of ether-only notes that is made next. -/
def chooseEther (b : Builder) (salt : Nat → Felt) (t : Preparation) :
    Except BuildError EtherChoice :=
  coverEther (b.priceAt t.asked.eth t.externalFee (b.tokenOutflow salt t.surplus))
    (etherPool t.tokens.left) t.tokens.chosen.length t.gathered

section Draft

variable {b : Builder} {salt : Nat → Felt} {t : Preparation} {st : Stages} {e : BuildError}

theorem Reaches.prepares (h : b.Reaches salt st) : b.Prepares salt st.preparation :=
  ⟨h.asked, h.tokens, h.surplus, h.externalFee, h.gathered⟩

theorem Prepares.tallies (h : b.Prepares salt t) :
    t.asked.Tallies (b.requests.map Outflow.asset) :=
  Holdings.tallies_of_ofAssets ((Holdings.ofNotes_map Outflow.note b.requests).symm.trans h.asked)

theorem Prepares.gathered_eq (h : b.Prepares salt t) :
    t.gathered.toNat = etherTotal (assetsOf t.tokens.chosen) := by
  rw [Amount.sum?_eq_some_iff.mp h.gathered, List.map_map, etherTotal, assetsOf, List.map_map]
  rfl

theorem chooseEther_failsOnly (b : Builder) (salt : Nat → Felt) (t : Preparation) :
    FailsOnly EtherFailure (b.chooseEther salt t) :=
  coverEther_failsOnly (fun _ => priceOf_failsOnly _ _ _ _) _ _ _

/-- A draft that is not made stops at notes that cannot be totalled, at the token notes, at a total
that does not fit, or where ether is chosen. -/
theorem draft_eq_error (h : b.draft salt = .error e) :
    (∃ cause, e = .note cause) ∨ TokenFailure e ∨ e = .overflow .externalFee ∨
      e = .overflow .selectedEther ∨ ∃ t, b.Prepares salt t ∧ b.chooseEther salt t = .error e := by
  have hnote {α : Type} {x : Except NoteError α} (hx : x.mapError .note = .error e) :
      ∃ cause, e = .note cause := by
    obtain ⟨cause, -, hcause⟩ := Except.mapError_eq_error_iff.mp hx
    exact ⟨cause, hcause.symm⟩
  rcases Except.bind_eq_error_iff.mp h with hasked | ⟨asked, hasked, h⟩
  · exact .inl (hnote hasked)
  rcases Except.bind_eq_error_iff.mp h with htokens | ⟨tokens, htokens, h⟩
  · exact .inr (.inl (selectTokens_failsOnly _ _ e htokens))
  rcases Except.bind_eq_error_iff.mp h with hsurplus | ⟨surplus, hsurplus, h⟩
  · rcases Except.bind_eq_error_iff.mp hsurplus with hpicked | ⟨_, -, hpure⟩
    · exact .inl (hnote hpicked)
    · cases hpure
  cases hfees : externalFees? (b.tokenOutflow salt surplus) with
  | none =>
    rw [tokenOutflow] at hfees
    simp only [hfees] at h
    exact .inr (.inr (.inl (Except.error.inj h).symm))
  | some externalFee =>
    cases hgathered : Amount.sum? (tokens.chosen.map fun u => u.asset.eth) with
    | none =>
      rw [tokenOutflow] at hfees
      simp only [hfees, hgathered] at h
      exact .inr (.inr (.inr (.inl (Except.error.inj h).symm)))
    | some gathered =>
      have hprepares : b.Prepares salt ⟨asked, tokens, surplus, externalFee, gathered⟩ :=
        ⟨Except.mapError_eq_ok_iff.mp hasked, htokens, hsurplus, hfees, hgathered⟩
      rw [tokenOutflow] at hfees
      simp only [hfees, hgathered] at h
      rcases Except.bind_eq_error_iff.mp h with hether | ⟨_, -, hpure⟩
      · exact .inr (.inr (.inr (.inr ⟨_, hprepares, hether⟩)))
      · cases hpure

theorem draft_ne_unbalanced (b : Builder) (salt : Nat → Felt) (cause : BalanceError) :
    b.draft salt ≠ .error (.unbalanced cause) := by
  intro h
  rcases draft_eq_error h with ⟨_, h⟩ | h | h | h | ⟨t, -, h⟩
  · cases h
  · cases h
  · cases h
  · cases h
  · cases chooseEther_failsOnly b salt t _ h with
    | price h => cases h

/-- Where ether cannot be chosen the draft fails likewise. -/
theorem Prepares.draft_eq_error (h : b.Prepares salt t) (hether : b.chooseEther salt t = .error e) :
    b.draft salt = .error e := by
  have hfees := h.externalFee
  rw [tokenOutflow] at hfees
  refine Except.bind_eq_error_iff.mpr (.inr ⟨t.asked, Except.mapError_eq_ok_iff.mpr h.asked, ?_⟩)
  refine Except.bind_eq_error_iff.mpr (.inr ⟨t.tokens, h.tokens, ?_⟩)
  refine Except.bind_eq_error_iff.mpr (.inr ⟨t.surplus, h.surplus, ?_⟩)
  simp only [hfees, h.gathered]
  exact Except.bind_eq_error_iff.mpr (.inl hether)

/-- Only the choice of ether-only notes reports a lack of ether. -/
theorem chooseEther_of_draft {required available deficit : Amount}
    (h : b.draft salt = .error (.insufficientEther required available deficit)) :
    ∃ t, b.Prepares salt t ∧
      b.chooseEther salt t = .error (.insufficientEther required available deficit) := by
  rcases draft_eq_error h with ⟨_, h⟩ | h | h | h | hether
  · cases h
  · cases h
  · cases h
  · cases h
  · exact hether

end Draft

end ShieldedWallet.Builder
