/-
Decimal numerals.

A numeral is a list of decimal digits, most significant first.  A number has one
numeral without needless zeros at its front, and the one that is printed is it.

* `digitsValue` — the number that digits write;
* `IsNumeral` — digits of which the first is not zero, unless it is the only one;
* `isNumeral_toDigits`, `IsNumeral.toDigits_digitsValue` — the numerals are the
  digits printed for numbers;
* `takeWhile_isDigit_append` — digits end at what is no digit;
* `toDigits_inj` — different numbers have different numerals.
-/
import Mathlib.Data.List.Basic
import Mathlib.Data.List.Induction

namespace ShieldedWallet

-- Powers of numbers are those of the core library, whatever else is imported.
attribute [local instance (high)] instPowNat

/-! ### The value of digits -/

/-- The number that decimal digits write, most significant first. -/
def digitsValue (digits : List Char) : Nat := Nat.ofDigitChars 10 digits 0

theorem sub_lt_ten_of_isDigit {c : Char} (h : c.isDigit) : c.toNat - 48 < 10 := by
  obtain ⟨-, hle⟩ := Char.isDigit_iff_toNat.mp h
  have hnine : '9'.toNat = 57 := rfl
  omega

theorem digitChar_sub_of_isDigit {c : Char} (h : c.isDigit) : Nat.digitChar (c.toNat - 48) = c := by
  obtain ⟨hle, -⟩ := Char.isDigit_iff_toNat.mp h
  have hzero : '0'.toNat = 48 := rfl
  apply Char.toNat_inj.mp
  rw [Nat.toNat_digitChar_of_lt_ten (sub_lt_ten_of_isDigit h)]
  omega

@[simp] theorem digitsValue_nil : digitsValue [] = 0 := rfl

theorem digitsValue_concat (digits : List Char) (c : Char) :
    digitsValue (digits ++ [c]) = 10 * digitsValue digits + (c.toNat - 48) := by
  rw [digitsValue, Nat.ofDigitChars_append, Nat.ofDigitChars_cons, Nat.ofDigitChars_nil]
  rfl

theorem digitsValue_append_zeros (digits : List Char) (count : Nat) :
    digitsValue (digits ++ List.replicate count '0') = digitsValue digits * 10 ^ count := by
  rw [digitsValue, Nat.ofDigitChars_append, Nat.ofDigitChars_replicate_zero, Nat.mul_comm]
  rfl

@[simp] theorem digitsValue_toDigits (n : Nat) : digitsValue (Nat.toDigits 10 n) = n :=
  Nat.ofDigitChars_ten_toDigits

theorem toDigits_inj {n m : Nat} : Nat.toDigits 10 n = Nat.toDigits 10 m ↔ n = m := by
  constructor
  · intro h
    rw [← digitsValue_toDigits n, h, digitsValue_toDigits]
  · exact congrArg _

theorem takeWhile_isDigit_append {digits : List Char} (h : ∀ c ∈ digits, c.isDigit)
    (rest : List Char) (hrest : rest.head?.all fun c => !c.isDigit) :
    (digits ++ rest).takeWhile Char.isDigit = digits ∧
      (digits ++ rest).dropWhile Char.isDigit = rest := by
  rw [List.takeWhile_append_of_pos h, List.dropWhile_append_of_pos h]
  cases rest with
  | nil => simp
  | cons c rest =>
    have hc : ¬ c.isDigit := by simpa using hrest
    rw [List.takeWhile_cons_of_neg hc, List.dropWhile_cons_of_neg hc, List.append_nil]
    exact ⟨rfl, rfl⟩

/-! ### Numerals -/

/-- Decimal digits, of which the first is not zero unless it is the only one. -/
structure IsNumeral (digits : List Char) : Prop where
  ne_nil : digits ≠ []
  isDigit : ∀ c ∈ digits, c.isDigit
  head : digits.head? = some '0' → digits = ['0']

theorem head?_toDigits_of_pos {n : Nat} (h : 0 < n) : (Nat.toDigits 10 n).head? ≠ some '0' := by
  -- the first digit is that of a tenth, down to a number of one digit
  induction n using Nat.strongRecOn with
  | ind n ih =>
    rcases Nat.lt_or_ge n 10 with hlt | hge
    · rw [Nat.toDigits_of_lt_base hlt, List.head?_cons, ne_eq, Option.some.injEq,
        Nat.digitChar_eq_zero]
      omega
    · rw [Nat.toDigits_of_base_le (by decide) hge, List.head?_append_of_ne_nil _ Nat.toDigits_ne_nil]
      exact ih (n / 10) (by omega) (by omega)

theorem isNumeral_toDigits (n : Nat) : IsNumeral (Nat.toDigits 10 n) where
  ne_nil := Nat.toDigits_ne_nil
  isDigit _ hc := Nat.isDigit_of_mem_toDigits (by decide) (by decide) hc
  head hhead := by
    rcases Nat.eq_zero_or_pos n with rfl | hpos
    · exact Nat.toDigits_zero 10
    · exact absurd hhead (head?_toDigits_of_pos hpos)

/-- A numeral is what is printed for the number that it writes. -/
theorem IsNumeral.toDigits_digitsValue {digits : List Char} (h : IsNumeral digits) :
    Nat.toDigits 10 (digitsValue digits) = digits := by
  induction digits using List.reverseRecOn with
  | nil => exact absurd rfl h.ne_nil
  | append_singleton front c ih =>
    have hc : c.isDigit := h.isDigit c (by simp)
    rw [digitsValue_concat]
    by_cases hfront : front = []
    · subst hfront
      rw [digitsValue_nil, Nat.mul_zero, Nat.zero_add,
        Nat.toDigits_of_lt_base (sub_lt_ten_of_isDigit hc), digitChar_sub_of_isDigit hc]
      rfl
    · -- more digits follow the first one, so it is not zero
      have hhead : front.head? ≠ some '0' := by
        intro hzero
        have hall := h.head (by rw [List.head?_append_of_ne_nil _ hfront, hzero])
        have hlength : front.length + 1 = 1 := by simpa using congrArg List.length hall
        exact hfront (List.length_eq_zero_iff.mp (by omega))
      have hdigits : ∀ d ∈ front, d.isDigit := fun d hd => h.isDigit d (List.mem_append_left _ hd)
      have hprinted := ih ⟨hfront, hdigits, fun hzero => absurd hzero hhead⟩
      have hpos : 0 < digitsValue front := by
        refine Nat.pos_of_ne_zero fun hzero => hhead ?_
        rw [← hprinted, hzero, Nat.toDigits_zero]
        rfl
      rw [← Nat.toDigits_append_toDigits (by decide) hpos (sub_lt_ten_of_isDigit hc), hprinted,
        Nat.toDigits_of_lt_base (sub_lt_ten_of_isDigit hc), digitChar_sub_of_isDigit hc]

end ShieldedWallet
