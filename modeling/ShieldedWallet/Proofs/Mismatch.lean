/-
Lists of signals side by side.

The signals that a prover answers with are compared with those expected, to the
end of the longer list.  The report is about the first place where the lists
differ, and the end of the shorter one counts as a difference.

* `FirstDifference` — where two lists differ first;
* `checkSignals_eq_ok_iff`, `checkSignals_eq_error_iff` — how a comparison ends;
* `FirstDifference.unique`, `FirstDifference.le_length` — there is one such
  place at most, and it is not behind the end of either list;
* `checkSignals_eq_search` — the comparison is a search through the indices of
  the longer list;
* `checkSignals_append_right`, `checkSignals_append_left` — answers that go on
  too long or stop too early are refused;
* `checkSignals_exact` — equal lists are accepted, and of others the first
  difference is reported.

Design notes: places are compared as `Option`s.  A signal that spells the text
for a missing one is still a signal there, and differs from the end of a list.
-/
import ShieldedWallet.Proving.Shield

namespace ShieldedWallet

/-! ### The first difference -/

/-- The lists agree before an index and differ at it, where one of them may have ended. -/
structure FirstDifference (expected got : List String) (index : Nat) : Prop where
  agree : ∀ j < index, expected[j]? = got[j]?
  differ : expected[index]? ≠ got[index]?

theorem FirstDifference.symm {expected got : List String} {index : Nat}
    (h : FirstDifference expected got index) : FirstDifference got expected index :=
  ⟨fun j hj => (h.agree j hj).symm, h.differ.symm⟩

theorem firstDifference_nil_iff {e : String} {es : List String} {index : Nat} :
    FirstDifference (e :: es) [] index ↔ index = 0 := by
  constructor
  · rintro ⟨hagree, -⟩
    cases index with
    | zero => rfl
    | succ i => exact absurd (hagree 0 (Nat.succ_pos i)) (Option.some_ne_none e)
  · rintro rfl
    exact ⟨fun j hj => absurd hj (Nat.not_lt_zero j), Option.some_ne_none e⟩

theorem firstDifference_cons_iff {e g : String} {es gs : List String} {index : Nat} :
    FirstDifference (e :: es) (g :: gs) index ↔
      (e ≠ g ∧ index = 0) ∨ ∃ i, index = i + 1 ∧ e = g ∧ FirstDifference es gs i := by
  cases index with
  | zero =>
    constructor
    · rintro ⟨-, hdiffer⟩
      exact .inl ⟨fun h => hdiffer (congrArg some h), rfl⟩
    · rintro (⟨hne, -⟩ | ⟨i, hi, -⟩)
      · exact ⟨fun j hj => absurd hj (Nat.not_lt_zero j), fun h => hne (Option.some.inj h)⟩
      · cases hi
  | succ i =>
    constructor
    · rintro ⟨hagree, hdiffer⟩
      have hhead : e = g := Option.some.inj (hagree 0 (Nat.succ_pos i))
      exact .inr ⟨i, rfl, hhead, fun j hj => hagree (j + 1) (Nat.succ_lt_succ hj), hdiffer⟩
    · rintro (⟨-, hi⟩ | ⟨i', hi, rfl, hagree, hdiffer⟩)
      · cases hi
      · cases hi
        refine ⟨fun j hj => ?_, hdiffer⟩
        cases j with
        | zero => rfl
        | succ j => exact hagree j (Nat.lt_of_succ_lt_succ hj)

/-! ### How a comparison ends -/

/-- The report of the place where two lists differ. -/
def mismatchAt (expected got : List String) (offset index : Nat) : ShieldError :=
  .signalMismatch (offset + index) (expected[index]?.getD missingSignal)
    (got[index]?.getD missingSignal)

theorem checkSignalsFrom_eq_ok_iff {expected got : List String} {offset : Nat} {u : Unit} :
    checkSignalsFrom offset expected got = .ok u ↔ expected = got := by
  fun_induction checkSignalsFrom offset expected got with
  | case1 => simp
  | case2 => simp
  | case3 => simp
  | case4 offset expected g got ih => simpa using ih
  | case5 offset e expected g got hne => simp [hne]

theorem checkSignalsFrom_eq_error_iff {expected got : List String} {offset : Nat}
    {err : ShieldError} :
    checkSignalsFrom offset expected got = .error err ↔
      ∃ i, FirstDifference expected got i ∧ err = mismatchAt expected got offset i := by
  fun_induction checkSignalsFrom offset expected got with
  | case1 =>
    refine iff_of_false (fun h => nomatch h) ?_
    rintro ⟨i, ⟨-, hdiffer⟩, -⟩
    exact hdiffer rfl
  | case2 offset e expected =>
    constructor
    · rintro ⟨⟩
      exact ⟨0, firstDifference_nil_iff.mpr rfl, rfl⟩
    · rintro ⟨i, hi, rfl⟩
      rw [firstDifference_nil_iff.mp hi]
      rfl
  | case3 offset g got =>
    constructor
    · rintro ⟨⟩
      exact ⟨0, (firstDifference_nil_iff.mpr rfl).symm, rfl⟩
    · rintro ⟨i, hi, rfl⟩
      rw [firstDifference_nil_iff.mp hi.symm]
      rfl
  | case4 offset expected g got ih =>
    rw [ih]
    -- one step further in both lists is one step further in the index
    have hshift (i : Nat) : mismatchAt expected got (offset + 1) i =
        mismatchAt (g :: expected) (g :: got) offset (i + 1) := by
      rw [mismatchAt, mismatchAt, Nat.add_right_comm, Nat.add_assoc]
      rfl
    constructor
    · rintro ⟨i, hi, rfl⟩
      exact ⟨i + 1, firstDifference_cons_iff.mpr (.inr ⟨i, rfl, rfl, hi⟩), hshift i⟩
    · rintro ⟨j, hj, rfl⟩
      rcases firstDifference_cons_iff.mp hj with ⟨hne, -⟩ | ⟨i, rfl, -, hi⟩
      · exact absurd rfl hne
      · exact ⟨i, hi, (hshift i).symm⟩
  | case5 offset e expected g got hne =>
    constructor
    · rintro ⟨⟩
      exact ⟨0, firstDifference_cons_iff.mpr (.inl ⟨hne, rfl⟩), rfl⟩
    · rintro ⟨j, hj, rfl⟩
      rcases firstDifference_cons_iff.mp hj with ⟨-, rfl⟩ | ⟨_, _, heq, _⟩
      · rfl
      · exact absurd heq hne

/-- Lists of signals are accepted exactly if they are equal. -/
theorem checkSignals_eq_ok_iff {expected got : List String} {u : Unit} :
    checkSignals expected got = .ok u ↔ expected = got :=
  checkSignalsFrom_eq_ok_iff

/-- The first place where lists of signals differ is reported, with what they have there. -/
theorem checkSignals_eq_error_iff {expected got : List String} {err : ShieldError} :
    checkSignals expected got = .error err ↔
      ∃ i, FirstDifference expected got i ∧
        err = .signalMismatch i (expected[i]?.getD missingSignal) (got[i]?.getD missingSignal) := by
  rw [checkSignals, checkSignalsFrom_eq_error_iff]
  simp only [mismatchAt, Nat.zero_add]

/-! ### Where the lists differ -/

namespace FirstDifference

variable {expected got : List String} {i j : Nat}

theorem unique (hi : FirstDifference expected got i) (hj : FirstDifference expected got j) :
    i = j := by
  rcases Nat.lt_trichotomy i j with hlt | heq | hgt
  · exact absurd (hj.agree i hlt) hi.differ
  · exact heq
  · exact absurd (hi.agree j hgt) hj.differ

theorem le_length_left (h : FirstDifference expected got i) : i ≤ expected.length := by
  refine Nat.le_of_not_lt fun hlt => h.differ ?_
  -- where this list ends the other one ends too, so there is nothing behind to differ
  have hend : got[expected.length]? = none := by
    rw [← h.agree expected.length hlt]
    exact List.getElem?_eq_none (Nat.le_refl _)
  have hshorter : got.length ≤ expected.length := List.getElem?_eq_none_iff.mp hend
  rw [List.getElem?_eq_none (Nat.le_of_lt hlt),
    List.getElem?_eq_none (Nat.le_trans hshorter (Nat.le_of_lt hlt))]

theorem le_length (h : FirstDifference expected got i) : i ≤ min expected.length got.length :=
  Nat.le_min.mpr ⟨h.le_length_left, h.symm.le_length_left⟩

theorem lt_length (h : FirstDifference expected got i) : i < max expected.length got.length := by
  refine Nat.lt_of_not_le fun hle => h.differ ?_
  obtain ⟨hexpected, hgot⟩ := Nat.max_le.mp hle
  rw [List.getElem?_eq_none hexpected, List.getElem?_eq_none hgot]

end FirstDifference

section Lists

variable {expected got : List String}

theorem exists_firstDifference (h : expected ≠ got) : ∃ i, FirstDifference expected got i := by
  cases hcheck : checkSignals expected got with
  | ok => exact absurd (checkSignals_eq_ok_iff.mp hcheck) h
  | error err =>
    obtain ⟨i, hi, -⟩ := checkSignals_eq_error_iff.mp hcheck
    exact ⟨i, hi⟩

/-- The first index, up to the end of the longer list, at which two lists differ. -/
def firstMismatch? (expected got : List String) : Option Nat :=
  (List.range (max expected.length got.length)).find? fun i => expected[i]? ≠ got[i]?

theorem firstMismatch?_eq_some_iff {i : Nat} :
    firstMismatch? expected got = some i ↔ FirstDifference expected got i := by
  rw [firstMismatch?, List.find?_range_eq_some]
  simp only [List.mem_range, decide_not, Bool.not_not, Bool.not_eq_true', decide_eq_true_eq,
    decide_eq_false_iff_not]
  constructor
  · rintro ⟨hdiffer, -, hagree⟩
    exact ⟨hagree, hdiffer⟩
  · intro h
    exact ⟨h.differ, h.lt_length, h.agree⟩

theorem firstMismatch?_eq_none_iff : firstMismatch? expected got = none ↔ expected = got := by
  constructor
  · intro hnone
    by_cases heq : expected = got
    · exact heq
    · obtain ⟨i, hi⟩ := exists_firstDifference heq
      cases hnone.symm.trans (firstMismatch?_eq_some_iff.mpr hi)
  · rintro rfl
    refine Option.eq_none_iff_forall_ne_some.mpr fun i hi => ?_
    exact (firstMismatch?_eq_some_iff.mp hi).differ rfl

/-- The comparison goes through the indices of the longer list and stops at the first at which the
lists differ. -/
theorem checkSignals_eq_search (expected got : List String) :
    checkSignals expected got =
      match firstMismatch? expected got with
      | none => .ok ()
      | some i =>
        .error (.signalMismatch i (expected[i]?.getD missingSignal)
          (got[i]?.getD missingSignal)) := by
  cases hsearch : firstMismatch? expected got with
  | none => exact checkSignals_eq_ok_iff.mpr (firstMismatch?_eq_none_iff.mp hsearch)
  | some i =>
    exact checkSignals_eq_error_iff.mpr ⟨i, firstMismatch?_eq_some_iff.mp hsearch, rfl⟩

end Lists

/-! ### Answers of another length -/

theorem firstDifference_append (front : List String) (g : String) (rest : List String) :
    FirstDifference front (front ++ g :: rest) front.length where
  agree j hj := (List.getElem?_append_left hj).symm
  differ := by
    rw [List.getElem?_eq_none (Nat.le_refl _), List.getElem?_append_right (Nat.le_refl _),
      Nat.sub_self, List.getElem?_cons_zero]
    exact (Option.some_ne_none g).symm

/-- An answer that goes on is refused at its first signal too many, whatever that is. -/
theorem checkSignals_append_right (expected : List String) (g : String) (rest : List String) :
    checkSignals expected (expected ++ g :: rest) =
      .error (.signalMismatch expected.length missingSignal g) := by
  refine checkSignals_eq_error_iff.mpr ⟨_, firstDifference_append expected g rest, ?_⟩
  simp

/-- An answer that stops is refused at its end, whatever is expected there. -/
theorem checkSignals_append_left (got : List String) (e : String) (rest : List String) :
    checkSignals (got ++ e :: rest) got =
      .error (.signalMismatch got.length e missingSignal) := by
  refine checkSignals_eq_error_iff.mpr ⟨_, (firstDifference_append got e rest).symm, ?_⟩
  simp

/-! ### All lists -/

/-- Equal lists are accepted and no others.  Of lists that are not equal the first difference is
reported, which lies at the end of the shorter one at the latest, with the text for a missing signal
in place of what an ended list does not have. -/
theorem checkSignals_exact (expected got : List String) :
    (checkSignals expected got = .ok () ↔ expected = got) ∧
      (expected ≠ got → ∃ i ≤ min expected.length got.length, FirstDifference expected got i ∧
        checkSignals expected got =
          .error (.signalMismatch i (expected[i]?.getD missingSignal)
            (got[i]?.getD missingSignal))) := by
  refine ⟨checkSignals_eq_ok_iff, fun hne => ?_⟩
  obtain ⟨i, hi⟩ := exists_firstDifference hne
  exact ⟨i, hi.le_length, hi, checkSignals_eq_error_iff.mpr ⟨i, hi, rfl⟩⟩

/-- A signal too many that spells the text for a missing one is still refused. -/
theorem checkSignals_exact_ownText :
    ["7"] ≠ ["7", "<missing>"] ∧ checkSignals ["7"] ["7", "<missing>"] =
      .error (.signalMismatch 1 "<missing>" "<missing>") := by
  have hne : ["7"] ≠ ["7", "<missing>"] := by decide
  obtain ⟨i, -, hi, hreport⟩ := (checkSignals_exact ["7"] ["7", "<missing>"]).2 hne
  obtain rfl := hi.unique (firstDifference_append ["7"] "<missing>" [])
  exact ⟨hne, hreport⟩

end ShieldedWallet
