/-
The text of an amount of ether is exact, and the only canonical one.

A canonical decimal is a numeral without needless zeros in front, and behind a
point, if there is one, some digits without needless zeros at the end.  An amount
of ether has one such text with up to eighteen places, which is the one printed.

* `decimalValue?` — the number that a decimal text writes;
* `IsFraction`, `IsDecimal` — canonical digits behind a point, and canonical
  decimals;
* `Spells` — characters write an amount of ether, said of its digits;
* `spells_iff` — the characters printed are the only ones that do;
* `formatEther_exact` — the text of an amount in terms of the number it writes.

Design notes: the eighteen digits that are printed before zeros are trimmed are
a fraction with zeros behind it, so trimming and padding undo each other.
-/
import Mathlib.Algebra.Order.Field.Rat
import Mathlib.Data.List.DropRight
import Mathlib.Tactic.FieldSimp
import Mathlib.Tactic.NormNum
import ShieldedWallet.Proofs.Numerals
import ShieldedWallet.Text.Ether

namespace ShieldedWallet

-- Powers of numbers are those of the core library, whatever else is imported.
attribute [local instance (high)] instPowNat

/-! ### Decimal texts -/

/-- The number that a text of digits writes, or a text of digits on both sides of a point. -/
def decimalValue? (text : String) : Option ℚ :=
  let whole := text.toList.takeWhile Char.isDigit
  match text.toList.dropWhile Char.isDigit with
  | [] => if whole.isEmpty then none else some (digitsValue whole)
  | '.' :: fraction =>
    if whole.isEmpty || fraction.isEmpty || !fraction.all Char.isDigit then none
    else some (digitsValue whole + digitsValue fraction / 10 ^ fraction.length)
  | _ => none

/-- Up to some number of decimal digits, at least one, of which the last is not zero. -/
structure IsFraction (places : Nat) (digits : List Char) : Prop where
  ne_nil : digits ≠ []
  length_le : digits.length ≤ places
  isDigit : ∀ c ∈ digits, c.isDigit
  last : digits.getLast? ≠ some '0'

/-- A numeral, or a numeral and a fraction on the sides of a point. -/
inductive IsDecimal (places : Nat) : List Char → Prop where
  | whole {digits : List Char} (hwhole : IsNumeral digits) : IsDecimal places digits
  | point {digits fraction : List Char} (hwhole : IsNumeral digits)
      (hfraction : IsFraction places fraction) : IsDecimal places (digits ++ '.' :: fraction)

theorem decimalValue?_whole {digits : List Char} (h : IsNumeral digits) :
    decimalValue? (String.ofList digits) = some (digitsValue digits : ℚ) := by
  obtain ⟨htake, hdrop⟩ := takeWhile_isDigit_append h.isDigit [] rfl
  rw [List.append_nil] at htake hdrop
  simp [decimalValue?, htake, hdrop, h.ne_nil]

theorem decimalValue?_point {digits fraction : List Char} {places : Nat} (h : IsNumeral digits)
    (hfraction : IsFraction places fraction) :
    decimalValue? (String.ofList (digits ++ '.' :: fraction)) =
      some (digitsValue digits + digitsValue fraction / 10 ^ fraction.length : ℚ) := by
  obtain ⟨htake, hdrop⟩ := takeWhile_isDigit_append h.isDigit ('.' :: fraction) rfl
  have hall : fraction.all Char.isDigit := List.all_eq_true.mpr hfraction.isDigit
  simp [decimalValue?, htake, hdrop, h.ne_nil, hfraction.ne_nil, hall]

/-! ### Digits behind the point -/

@[simp] theorem length_decimalDigits (w n : Nat) : (decimalDigits w n).length = w := by
  induction w generalizing n with
  | zero => rfl
  | succ w ih => rw [decimalDigits, List.length_append, ih, List.length_singleton]

theorem isDigit_of_mem_decimalDigits {w n : Nat} {c : Char} (h : c ∈ decimalDigits w n) :
    c.isDigit := by
  induction w generalizing n with
  | zero => cases h
  | succ w ih =>
    rw [decimalDigits, List.mem_append, List.mem_singleton] at h
    rcases h with h | rfl
    · exact ih h
    · rw [Nat.isDigit_digitChar, decide_eq_true_iff]
      exact Nat.mod_lt n (by decide)

theorem digitsValue_decimalDigits (w n : Nat) : digitsValue (decimalDigits w n) = n % 10 ^ w := by
  induction w generalizing n with
  | zero => rw [decimalDigits, digitsValue_nil, Nat.pow_zero, Nat.mod_one]
  | succ w ih =>
    rw [decimalDigits, digitsValue_concat, ih,
      Nat.toNat_digitChar_sub_48_of_lt_ten (Nat.mod_lt n (by decide)), Nat.pow_succ,
      Nat.mul_comm (10 ^ w) 10, Nat.mod_mul, Nat.add_comm]

/-- Digits are the low digits of the number that they write, as many as there are. -/
theorem decimalDigits_digitsValue {digits : List Char} (h : ∀ c ∈ digits, c.isDigit) :
    decimalDigits digits.length (digitsValue digits) = digits := by
  induction digits using List.reverseRecOn with
  | nil => rfl
  | append_singleton front c ih =>
    have hfront : ∀ d ∈ front, d.isDigit := fun d hd => h d (List.mem_append_left _ hd)
    have hc : c.isDigit := h c (by simp)
    have hlt := sub_lt_ten_of_isDigit hc
    have hdiv : (10 * digitsValue front + (c.toNat - 48)) / 10 = digitsValue front := by omega
    have hmod : (10 * digitsValue front + (c.toNat - 48)) % 10 = c.toNat - 48 := by omega
    rw [List.length_append, List.length_singleton, decimalDigits, digitsValue_concat, hdiv, hmod,
      ih hfront, digitChar_sub_of_isDigit hc]

theorem digitsValue_lt {digits : List Char} (h : ∀ c ∈ digits, c.isDigit) :
    digitsValue digits < 10 ^ digits.length := by
  have hmod := digitsValue_decimalDigits digits.length (digitsValue digits)
  rw [decimalDigits_digitsValue h] at hmod
  rw [hmod]
  exact Nat.mod_lt _ (Nat.pow_pos (by decide))

/-! ### Zeros at the end -/

theorem trimZeros_eq (digits : List Char) : trimZeros digits = digits.rdropWhile (· = '0') := rfl

theorem trimZeros_append_zeros {digits : List Char} (h : digits.getLast? ≠ some '0') (count : Nat) :
    trimZeros (digits ++ List.replicate count '0') = digits := by
  induction count with
  | zero =>
    rw [List.replicate_zero, List.append_nil, trimZeros_eq, List.rdropWhile_eq_self_iff]
    intro hne hzero
    rw [List.getLast?_eq_some_getLast hne] at h
    exact h (congrArg some (of_decide_eq_true hzero))
  | succ count ih =>
    rw [List.replicate_succ', ← List.append_assoc, trimZeros_eq, List.rdropWhile_concat,
      if_pos (decide_eq_true rfl)]
    exact ih

theorem exists_trimZeros (digits : List Char) :
    ∃ count, digits = trimZeros digits ++ List.replicate count '0' := by
  have hzeros : digits.rtakeWhile (· = '0') =
      List.replicate (digits.rtakeWhile (· = '0')).length '0' :=
    List.eq_replicate_of_mem fun c hc => by simpa using List.mem_rtakeWhile_imp hc
  refine ⟨(digits.rtakeWhile (· = '0')).length, ?_⟩
  rw [← hzeros]
  exact List.rdropWhile_append_rtakeWhile.symm

theorem getLast?_trimZeros (digits : List Char) : (trimZeros digits).getLast? ≠ some '0' := by
  by_cases hne : trimZeros digits = []
  · rw [hne]
    exact nofun
  · intro hlast
    rw [List.getLast?_eq_some_getLast hne, Option.some.injEq] at hlast
    exact List.rdropWhile_last_not _ digits hne (decide_eq_true hlast)

/-! ### The two sides of the point -/

/-- The digits of a fraction of ether, with zeros behind them up to the last place. -/
def padded (fraction : List Char) : List Char :=
  fraction ++ List.replicate (etherDecimals - fraction.length) '0'

theorem digitsValue_padded (fraction : List Char) :
    digitsValue (padded fraction) =
      digitsValue fraction * 10 ^ (etherDecimals - fraction.length) :=
  digitsValue_append_zeros _ _

namespace IsFraction

variable {fraction : List Char}

theorem digitsValue_pos {places : Nat} (h : IsFraction places fraction) :
    0 < digitsValue fraction := by
  obtain ⟨front, c, rfl⟩ := (List.eq_nil_or_concat' fraction).resolve_left h.ne_nil
  have hc : c.isDigit := h.isDigit c (by simp)
  obtain ⟨hle, -⟩ := Char.isDigit_iff_toNat.mp hc
  have hne : c.toNat ≠ '0'.toNat := by
    intro hzero
    exact h.last (by rw [List.getLast?_concat, Char.toNat_inj.mp hzero])
  have hcode : '0'.toNat = 48 := rfl
  rw [digitsValue_concat]
  omega

variable (h : IsFraction etherDecimals fraction)

include h

theorem length_padded : (padded fraction).length = etherDecimals := by
  have hle := h.length_le
  rw [padded, List.length_append, List.length_replicate]
  omega

theorem isDigit_of_mem_padded : ∀ c ∈ padded fraction, c.isDigit := by
  intro c hc
  rcases List.mem_append.mp hc with hc | hc
  · exact h.isDigit c hc
  · rw [List.eq_of_mem_replicate hc]
    rfl

theorem digitsValue_padded_lt : digitsValue (padded fraction) < etherUnit := by
  have hlt := digitsValue_lt h.isDigit_of_mem_padded
  rwa [h.length_padded] at hlt

theorem digitsValue_padded_pos : 0 < digitsValue (padded fraction) := by
  rw [digitsValue_padded]
  exact Nat.mul_pos h.digitsValue_pos (Nat.pow_pos (by decide))

theorem trimZeros_digitsValue_padded :
    trimZeros (decimalDigits etherDecimals (digitsValue (padded fraction))) = fraction := by
  have hdigits := decimalDigits_digitsValue h.isDigit_of_mem_padded
  rw [h.length_padded] at hdigits
  rw [hdigits]
  exact trimZeros_append_zeros h.last _

end IsFraction

section TrimZeros

variable {n : Nat}

theorem padded_trimZeros : padded (trimZeros (decimalDigits etherDecimals n)) =
    decimalDigits etherDecimals n := by
  obtain ⟨count, hcount⟩ := exists_trimZeros (decimalDigits etherDecimals n)
  have hlength := congrArg List.length hcount
  rw [length_decimalDigits, List.length_append, List.length_replicate] at hlength
  rw [padded, show etherDecimals - (trimZeros (decimalDigits etherDecimals n)).length = count by omega]
  exact hcount.symm

theorem digitsValue_padded_trimZeros (hlt : n < etherUnit) :
    digitsValue (padded (trimZeros (decimalDigits etherDecimals n))) = n := by
  rw [padded_trimZeros, digitsValue_decimalDigits]
  exact Nat.mod_eq_of_lt hlt

theorem isFraction_trimZeros (hpos : 0 < n) (hlt : n < etherUnit) :
    IsFraction etherDecimals (trimZeros (decimalDigits etherDecimals n)) where
  ne_nil hnil := by
    -- a number of zeros only would be zero
    have hvalue := digitsValue_padded_trimZeros hlt
    rw [digitsValue_padded, hnil, digitsValue_nil, Nat.zero_mul] at hvalue
    omega
  length_le := by
    have hlength := congrArg List.length (padded_trimZeros (n := n))
    rw [padded, List.length_append, length_decimalDigits] at hlength
    omega
  isDigit c hc := by
    have hmem : c ∈ padded (trimZeros (decimalDigits etherDecimals n)) :=
      List.mem_append_left _ hc
    rw [padded_trimZeros] at hmem
    exact isDigit_of_mem_decimalDigits hmem
  last := getLast?_trimZeros _

end TrimZeros

/-! ### The characters of an amount -/

/-- Some characters write an amount of ether: the whole part counts in ether, and the fraction in
eighteenth places once zeros are put behind it. -/
inductive Spells (n : Nat) : List Char → Prop where
  | whole {digits : List Char} (hwhole : IsNumeral digits)
      (hn : digitsValue digits * etherUnit = n) : Spells n digits
  | point {digits fraction : List Char} (hwhole : IsNumeral digits)
      (hfraction : IsFraction etherDecimals fraction)
      (hn : digitsValue digits * etherUnit + digitsValue (padded fraction) = n) :
      Spells n (digits ++ '.' :: fraction)

theorem spells_etherChars (n : Nat) : Spells n (etherChars n) := by
  have hsplit : digitsValue (Nat.toDigits 10 (n / etherUnit)) * etherUnit + n % etherUnit = n := by
    rw [digitsValue_toDigits, Nat.mul_comm]
    exact Nat.div_add_mod n etherUnit
  have hwhole := isNumeral_toDigits (n / etherUnit)
  rw [etherChars]
  split
  case isTrue hzero =>
    rw [hzero, Nat.add_zero] at hsplit
    exact .whole hwhole hsplit
  case isFalse hne =>
    have hlt : n % etherUnit < etherUnit := Nat.mod_lt n (by decide)
    refine .point hwhole (isFraction_trimZeros (Nat.pos_of_ne_zero hne) hlt) ?_
    rw [digitsValue_padded_trimZeros hlt]
    exact hsplit

theorem Spells.eq_etherChars {n : Nat} {cs : List Char} (h : Spells n cs) : cs = etherChars n := by
  have hunit : 0 < etherUnit := by decide
  cases h with
  | whole hwhole hn =>
    subst hn
    rw [etherChars, Nat.mul_mod_left, if_pos rfl, Nat.mul_div_left _ hunit,
      hwhole.toDigits_digitsValue]
  | @point digits fraction hwhole hfraction hn =>
    have hlt := hfraction.digitsValue_padded_lt
    have hpos := hfraction.digitsValue_padded_pos
    have hdiv : n / etherUnit = digitsValue digits := by
      rw [← hn, Nat.add_comm, Nat.add_mul_div_right _ _ hunit, Nat.div_eq_of_lt hlt, Nat.zero_add]
    have hmod : n % etherUnit = digitsValue (padded fraction) := by
      rw [← hn, Nat.add_comm, Nat.add_mul_mod_self_right, Nat.mod_eq_of_lt hlt]
    rw [etherChars, hdiv, hmod, if_neg (Nat.ne_of_gt hpos), hwhole.toDigits_digitsValue,
      hfraction.trimZeros_digitsValue_padded]

/-- The characters printed for an amount are the only ones that write it. -/
theorem spells_iff {n : Nat} {cs : List Char} : Spells n cs ↔ cs = etherChars n :=
  ⟨Spells.eq_etherChars, fun h => h ▸ spells_etherChars n⟩

/-- A point stands in the characters exactly if the amount is no whole number of ethers. -/
theorem Spells.shape {n : Nat} {cs : List Char} (h : Spells n cs) :
    ∃ whole, IsNumeral whole ∧
      ((etherUnit ∣ n ∧ cs = whole) ∨
        (¬ etherUnit ∣ n ∧ ∃ fraction, IsFraction etherDecimals fraction ∧
          cs = whole ++ '.' :: fraction)) := by
  cases h with
  | whole hwhole hn => exact ⟨_, hwhole, .inl ⟨⟨_, by rw [← hn, Nat.mul_comm]⟩, rfl⟩⟩
  | point hwhole hfraction hn =>
    refine ⟨_, hwhole, .inr ⟨fun hdvd => ?_, _, hfraction, rfl⟩⟩
    -- the fraction would be a multiple of one ether, and is less than that
    rw [← hn, Nat.dvd_add_right (Nat.dvd_mul_left _ _)] at hdvd
    exact Nat.not_dvd_of_pos_of_lt hfraction.digitsValue_padded_pos
      hfraction.digitsValue_padded_lt hdvd

/-! ### The number that the text writes -/

theorem etherUnit_cast : (etherUnit : ℚ) = 10 ^ 18 := by
  norm_num [etherUnit, etherDecimals]

theorem value_mul_unit_of_isFraction {fraction : List Char}
    (h : IsFraction etherDecimals fraction) (whole : Nat) :
    (whole + digitsValue fraction / 10 ^ fraction.length : ℚ) * 10 ^ 18 =
      ((whole * etherUnit + digitsValue (padded fraction) : Nat) : ℚ) := by
  have hplaces : (10 : ℚ) ^ 18 =
      10 ^ fraction.length * 10 ^ (etherDecimals - fraction.length) := by
    rw [← pow_add, Nat.add_sub_cancel' h.length_le]
    rfl
  rw [digitsValue_padded, Nat.cast_add, Nat.cast_mul, etherUnit_cast, Nat.cast_mul, Nat.cast_pow,
    Nat.cast_ofNat, add_mul]
  congr 1
  rw [hplaces]
  field_simp

/-- Canonical decimals write an amount of ether by their value exactly if they do by their
digits. -/
theorem spells_iff_decimalValue? {n : Nat} {cs : List Char} :
    Spells n cs ↔ IsDecimal etherDecimals cs ∧
      ∃ q, decimalValue? (String.ofList cs) = some q ∧ q * 10 ^ 18 = n := by
  constructor
  · intro h
    cases h with
    | whole hwhole hn =>
      refine ⟨.whole hwhole, _, decimalValue?_whole hwhole, ?_⟩
      rw [← hn, Nat.cast_mul, etherUnit_cast]
    | point hwhole hfraction hn =>
      refine ⟨.point hwhole hfraction, _, decimalValue?_point hwhole hfraction, ?_⟩
      rw [value_mul_unit_of_isFraction hfraction, hn]
  · rintro ⟨hdecimal, q, hq, hn⟩
    cases hdecimal with
    | whole hwhole =>
      rw [decimalValue?_whole hwhole, Option.some.injEq] at hq
      rw [← hq, ← etherUnit_cast, ← Nat.cast_mul] at hn
      exact .whole hwhole (Nat.cast_injective hn)
    | point hwhole hfraction =>
      rw [decimalValue?_point hwhole hfraction, Option.some.injEq] at hq
      rw [← hq, value_mul_unit_of_isFraction hfraction] at hn
      exact .point hwhole hfraction (Nat.cast_injective hn)

theorem toList_formatEther (wei : Amount) : (formatEther wei).toList = etherChars wei.toNat :=
  String.toList_ofList

/-- The text of an amount writes the amount in ether, as a numeral alone if it is a whole number of
ethers and with one to eighteen digits behind a point, the last not zero, if it is not.  It is the
only such text, and the text of no other amount. -/
theorem formatEther_exact (wei : Amount) :
    (∃ q, decimalValue? (formatEther wei) = some q ∧ q * 10 ^ 18 = wei.toNat) ∧
      (∃ whole, IsNumeral whole ∧
        ((10 ^ 18 ∣ wei.toNat ∧ (formatEther wei).toList = whole) ∨
          (¬ 10 ^ 18 ∣ wei.toNat ∧ ∃ fraction, IsFraction 18 fraction ∧
            (formatEther wei).toList = whole ++ '.' :: fraction))) ∧
      ('.' ∈ (formatEther wei).toList ↔ ¬ 10 ^ 18 ∣ wei.toNat) ∧
      (∀ text, IsDecimal 18 text.toList →
        (∃ q, decimalValue? text = some q ∧ q * 10 ^ 18 = wei.toNat) → text = formatEther wei) ∧
      ∀ other, formatEther other = formatEther wei → other = wei := by
  have hvalue (wei : Amount) :
      ∃ q, decimalValue? (formatEther wei) = some q ∧ q * 10 ^ 18 = wei.toNat :=
    (spells_iff_decimalValue?.mp (spells_etherChars wei.toNat)).2
  have hshape := (spells_etherChars wei.toNat).shape
  rw [← toList_formatEther] at hshape
  refine ⟨hvalue wei, hshape, ?_, ?_, ?_⟩
  · obtain ⟨whole, hwhole, ⟨hdvd, htext⟩ | ⟨hndvd, fraction, -, htext⟩⟩ := hshape
    · have hpoint : '.' ∉ whole := fun hmem => absurd (hwhole.isDigit _ hmem) (by decide)
      rw [htext]
      exact iff_of_false hpoint (not_not_intro hdvd)
    · rw [htext]
      exact iff_of_true (by simp) hndvd
  · intro text hdecimal hq
    rw [← String.ofList_toList (s := text)] at hq
    have hspells : Spells wei.toNat text.toList := spells_iff_decimalValue?.mpr ⟨hdecimal, hq⟩
    rw [← String.toList_inj, toList_formatEther, spells_iff.mp hspells]
  · intro other heq
    obtain ⟨q, hq, hwei⟩ := hvalue wei
    obtain ⟨q', hq', hother⟩ := hvalue other
    rw [heq, hq, Option.some.injEq] at hq'
    rw [← hq', hwei] at hother
    exact Amount.ext (Nat.cast_injective hother.symm)

/-- One ether and five hundredths, of which the zero behind the point stays. -/
theorem formatEther_exact_hundredths :
    IsDecimal 18 "1.05".toList ∧
      (∃ q, decimalValue? "1.05" = some q ∧
        q * 10 ^ 18 = (1050000000000000000 : Amount).toNat) ∧
      "1.05" = formatEther 1050000000000000000 := by
  have hwhole : IsNumeral ['1'] := ⟨by simp, by simp, by simp⟩
  have hfraction : IsFraction 18 ['0', '5'] := ⟨by simp, by simp, by simp, by simp⟩
  have hdecimal : IsDecimal 18 "1.05".toList := .point hwhole hfraction
  have hvalue : ∃ q, decimalValue? "1.05" = some q ∧
      q * 10 ^ 18 = (1050000000000000000 : Amount).toNat := by
    refine ⟨_, decimalValue?_point hwhole hfraction, ?_⟩
    have hwei : (1050000000000000000 : Amount).toNat = 1050000000000000000 := rfl
    rw [hwei, show digitsValue ['1'] = 1 from rfl, show digitsValue ['0', '5'] = 5 from rfl]
    norm_num
  obtain ⟨-, -, -, hunique, -⟩ := formatEther_exact 1050000000000000000
  exact ⟨hdecimal, hvalue, hunique "1.05" hdecimal hvalue⟩

end ShieldedWallet
