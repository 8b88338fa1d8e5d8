/-
Base-58 text is read as the bytes it writes.

Digits, most significant first, are a count of leading zeros and a number.  Both
are kept when the base is changed, so changing it back gives the digits again.
The text of bytes is their change of base, each digit with its character.

* `digitsLE_eq`, `ofDigitsLE_eq` — digits and numbers are those of `Nat.digits`
  and `Nat.ofDigits`;
* `rebase_rebase` — a change of base is undone by the opposite one;
* `Base58.digitValues_eq_ok_iff` — which characters have values;
* `Base58.decode?_eq_ok_iff` — a text is read exactly if it is the text of bytes.
-/
import Mathlib.Data.List.GetD
import Mathlib.Data.List.TakeWhile
import Mathlib.Data.Nat.Digits.Lemmas
import ShieldedWallet.Proofs.Outcome
import ShieldedWallet.Text.Base58

namespace ShieldedWallet

/-! ### Digits of a number -/

theorem digitsWithin_eq {base fuel n : Nat} (hbase : 1 < base) (hn : n < 2 ^ fuel) :
    digitsWithin base fuel n = Nat.digits base n := by
  induction fuel generalizing n with
  | zero =>
    have hzero : n = 0 := Nat.lt_one_iff.mp hn
    rw [hzero, Nat.digits_zero, digitsWithin]
  | succ fuel ih =>
    rw [digitsWithin]
    split
    case isTrue hzero => rw [hzero, Nat.digits_zero]
    case isFalse hne =>
      have hhalf : n / base < 2 ^ fuel := by
        have hle : n / base ≤ n / 2 := Nat.div_le_div_left hbase (by decide)
        rw [Nat.pow_succ] at hn
        omega
      rw [ih hhalf, Nat.digits_def' hbase (Nat.pos_of_ne_zero hne)]

theorem digitsLE_eq {base : Nat} (hbase : 1 < base) (n : Nat) :
    digitsLE base n = Nat.digits base n :=
  digitsWithin_eq hbase Nat.lt_log2_self

theorem ofDigitsLE_eq (base : Nat) (ds : List Nat) : ofDigitsLE base ds = Nat.ofDigits base ds := by
  induction ds with
  | nil => rfl
  | cons d ds ih => rw [ofDigitsLE, ih, Nat.ofDigits_cons]

/-! ### Leading zeros and a number -/

/-- The zeros in front of the first digit of the number. -/
def leadingZeros (vs : List Nat) : Nat := (vs.takeWhile (· = 0)).length

/-- The number that digits write, most significant first. -/
def valueOf (base : Nat) (vs : List Nat) : Nat := ofDigitsLE base vs.reverse

/-- The digits of a number, most significant first, behind zeros. -/
def spell (base zeros n : Nat) : List Nat := List.replicate zeros 0 ++ (digitsLE base n).reverse

section Spelling

variable {base zeros n : Nat} {vs : List Nat}

theorem valueOf_spell (hbase : 1 < base) : valueOf base (spell base zeros n) = n := by
  rw [valueOf, spell, List.reverse_append, List.reverse_reverse, List.reverse_replicate,
    ofDigitsLE_eq, Nat.ofDigits_append_replicate_zero, digitsLE_eq hbase, Nat.ofDigits_digits]

theorem takeWhile_digits (hbase : 1 < base) :
    (digitsLE base n).reverse.takeWhile (· = 0) = [] := by
  rw [digitsLE_eq hbase]
  by_cases hn : n = 0
  · rw [hn, Nat.digits_zero]
    rfl
  · -- the digit in front is the last of those that start with the least significant one
    have hne : Nat.digits base n ≠ [] := Nat.digits_ne_nil_iff_ne_zero.mpr hn
    have hlast : (Nat.digits base n).getLast hne ≠ 0 := Nat.getLast_digit_ne_zero base hn
    rw [← List.dropLast_concat_getLast hne, List.reverse_append, List.reverse_singleton,
      List.singleton_append, List.takeWhile_cons_of_neg (by simpa using hlast)]

theorem leadingZeros_spell (hbase : 1 < base) : leadingZeros (spell base zeros n) = zeros := by
  have hzeros : ∀ v ∈ List.replicate zeros 0, decide (v = 0) = true :=
    fun v hv => decide_eq_true (List.eq_of_mem_replicate hv)
  rw [leadingZeros, spell, List.takeWhile_append_of_pos hzeros, takeWhile_digits hbase,
    List.append_nil, List.length_replicate]

theorem lt_of_mem_spell (hbase : 1 < base) : ∀ v ∈ spell base zeros n, v < base := by
  intro v hv
  rcases List.mem_append.mp hv with hzero | hdigit
  · rw [List.eq_of_mem_replicate hzero]
    exact Nat.zero_lt_of_lt hbase
  · rw [List.mem_reverse, digitsLE_eq hbase] at hdigit
    exact Nat.digits_lt_base hbase hdigit

/-- Digits are the leading zeros and the digits of the number. -/
theorem spell_valueOf (hbase : 1 < base) (hvs : ∀ v ∈ vs, v < base) :
    spell base (leadingZeros vs) (valueOf base vs) = vs := by
  let front := vs.takeWhile (· = 0)
  let back := vs.dropWhile (· = 0)
  have hsplit : front ++ back = vs := List.takeWhile_append_dropWhile
  have hfront : front = List.replicate (leadingZeros vs) 0 :=
    List.eq_replicate_of_mem fun v hv => by simpa using List.mem_takeWhile_imp hv
  have hvalue : valueOf base vs = Nat.ofDigits base back.reverse := by
    rw [valueOf, ofDigitsLE_eq, ← hsplit, hfront, List.reverse_append, List.reverse_replicate,
      Nat.ofDigits_append_replicate_zero]
  have hback : Nat.digits base (Nat.ofDigits base back.reverse) = back.reverse := by
    refine Nat.digits_ofDigits base hbase _ (fun v hv => ?_) fun hne => ?_
    · exact hvs v ((List.dropWhile_sublist _).mem (List.mem_reverse.mp hv))
    · rw [List.getLast_reverse]
      simpa using List.head_dropWhile_not (fun v => decide (v = 0)) (List.reverse_ne_nil_iff.mp hne)
  rw [spell, hvalue, digitsLE_eq hbase, hback, List.reverse_reverse, ← hfront, hsplit]

end Spelling

/-! ### Changes of base -/

/-- The same leading zeros and number in another base. -/
def rebase (source target : Nat) (vs : List Nat) : List Nat :=
  spell target (leadingZeros vs) (valueOf source vs)

/-- A change of base is undone by the opposite one. -/
theorem rebase_rebase {source target : Nat} {vs : List Nat} (hsource : 1 < source)
    (htarget : 1 < target) (hvs : ∀ v ∈ vs, v < source) :
    rebase target source (rebase source target vs) = vs := by
  rw [rebase, rebase, leadingZeros_spell htarget, valueOf_spell htarget, spell_valueOf hsource hvs]

namespace Base58

/-! ### Characters -/

theorem digitValue?_digit : ∀ v < 58, digitValue? (digit v) = some v ∧ (digit v).toNat ≤ 127 := by
  decide

theorem digit_of_digitValue? {c : Char} {v : Nat} (h : digitValue? c = some v) :
    v < 58 ∧ digit v = c := by
  obtain ⟨hlt, hget, -⟩ := List.idxOf?_eq_some_iff.mp h
  refine ⟨hlt, ?_⟩
  rw [digit, List.getD_eq_getElem _ _ hlt, hget]

/-- Characters have values exactly if they are the digits of these. -/
theorem digitValues_eq_ok_iff {position : Nat} {cs : List Char} {vs : List Nat} :
    digitValues position cs = .ok vs ↔ cs = vs.map digit ∧ ∀ v ∈ vs, v < 58 := by
  induction cs generalizing position vs with
  | nil =>
    rw [digitValues]
    constructor
    · rintro ⟨⟩
      simp
    · rintro ⟨hnil, -⟩
      rw [List.map_eq_nil_iff.mp hnil.symm]
  | cons c cs ih =>
    rw [digitValues]
    constructor
    · intro h
      split at h
      case isTrue => cases h
      case isFalse =>
        split at h
        case h_1 => cases h
        case h_2 v hv =>
          obtain ⟨rest, hrest, rfl⟩ := Except.map_eq_ok_iff.mp h
          obtain ⟨hcs, hlt⟩ := ih.mp hrest
          obtain ⟨hv58, hdigit⟩ := digit_of_digitValue? hv
          exact ⟨by rw [hcs, List.map_cons, hdigit], List.forall_mem_cons.mpr ⟨hv58, hlt⟩⟩
    · rintro ⟨hcs, hlt⟩
      cases vs with
      | nil => cases hcs
      | cons v rest =>
        obtain ⟨hv58, hlt⟩ := List.forall_mem_cons.mp hlt
        rw [List.map_cons, List.cons.injEq] at hcs
        obtain ⟨rfl, hcs⟩ := hcs
        obtain ⟨hvalue, hascii⟩ := digitValue?_digit v hv58
        rw [if_neg (Nat.not_lt.mpr hascii), hvalue]
        exact Except.map_eq_ok_iff.mpr ⟨rest, ih.mpr ⟨hcs, hlt⟩, rfl⟩

/-! ### Bytes -/

theorem toNatBE_eq (bs : Bytes) : Bytes.toNatBE bs = valueOf 256 (bs.map UInt8.toNat) := by
  have hle (bs : Bytes) : Bytes.toNatLE bs = ofDigitsLE 256 (bs.map UInt8.toNat) := by
    induction bs with
    | nil => rfl
    | cons b bs ih => rw [Bytes.toNatLE_cons, ih, List.map_cons, ofDigitsLE]
  rw [Bytes.toNatBE, hle, valueOf, List.map_reverse]

theorem leadingZeros_bytes (bs : Bytes) :
    leadingZeros (bs.map UInt8.toNat) = (bs.takeWhile (· = 0)).length := by
  rw [leadingZeros, List.takeWhile_map, List.length_map]
  congr 2
  funext b
  exact decide_eq_decide.mpr ⟨fun h => UInt8.toNat_inj.mp h, fun h => congrArg UInt8.toNat h⟩

theorem digit_zero : digit 0 = '1' := rfl

theorem encodeChars_eq (bs : Bytes) :
    encodeChars bs = (rebase 256 58 (bs.map UInt8.toNat)).map digit := by
  rw [encodeChars, rebase, spell, leadingZeros_bytes, ← toNatBE_eq, List.map_append,
    List.map_replicate, List.map_reverse, digit_zero]

theorem map_toNat_ofNat {vs : List Nat} (h : ∀ v ∈ vs, v < 256) :
    (vs.map UInt8.ofNat).map UInt8.toNat = vs := by
  rw [List.map_map]
  exact (List.map_congr_left fun v hv => Nat.mod_eq_of_lt (h v hv)).trans (List.map_id vs)

theorem map_ofNat_toNat (bs : Bytes) : (bs.map UInt8.toNat).map UInt8.ofNat = bs := by
  rw [List.map_map]
  exact (List.map_congr_left fun _ _ => UInt8.ofNat_toNat).trans (List.map_id bs)

theorem forall_mem_toNat_lt (bs : Bytes) : ∀ v ∈ bs.map UInt8.toNat, v < 256 := by
  intro v hv
  obtain ⟨b, -, rfl⟩ := List.mem_map.mp hv
  exact b.toNat_lt

theorem decodeChars_eq {cs : List Char} :
    decodeChars cs = (digitValues 0 cs).map fun vs => (rebase 58 256 vs).map UInt8.ofNat := by
  rw [decodeChars]
  cases digitValues 0 cs with
  | error e => rfl
  | ok vs =>
    rw [Except.ok_bind]
    simp only [Except.map, rebase, spell, leadingZeros, valueOf, List.map_append,
      List.map_replicate, List.map_reverse]
    rfl

theorem decodeChars_eq_ok_iff {cs : List Char} {bs : Bytes} :
    decodeChars cs = .ok bs ↔ cs = encodeChars bs := by
  rw [decodeChars_eq, encodeChars_eq]
  constructor
  · intro h
    obtain ⟨vs, hvalues, rfl⟩ := Except.map_eq_ok_iff.mp h
    obtain ⟨rfl, hlt⟩ := digitValues_eq_ok_iff.mp hvalues
    -- the digits became bytes by a change of base, so that is undone
    have hbytes : ∀ v ∈ rebase 58 256 vs, v < 256 := lt_of_mem_spell (by decide)
    rw [map_toNat_ofNat hbytes, rebase_rebase (by decide) (by decide) hlt]
  · rintro rfl
    have hlt : ∀ v ∈ rebase 256 58 (bs.map UInt8.toNat), v < 58 := lt_of_mem_spell (by decide)
    refine Except.map_eq_ok_iff.mpr ⟨_, digitValues_eq_ok_iff.mpr ⟨rfl, hlt⟩, ?_⟩
    rw [rebase_rebase (by decide) (by decide) (forall_mem_toNat_lt bs), map_ofNat_toNat]

/-- A text is read exactly if it is the text of bytes, and then as these. -/
theorem decode?_eq_ok_iff {text : String} {bs : Bytes} :
    decode? text = .ok bs ↔ text = encode bs := by
  rw [decode?, decodeChars_eq_ok_iff, encode, ← String.toList_inj, String.toList_ofList]

theorem encode_inj {bs bs' : Bytes} : encode bs = encode bs' ↔ bs = bs' := by
  constructor
  · intro h
    exact Except.ok.inj ((decode?_eq_ok_iff.mpr rfl).symm.trans (decode?_eq_ok_iff.mpr h))
  · rintro rfl
    rfl

end Base58

end ShieldedWallet
