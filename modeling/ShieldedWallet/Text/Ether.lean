/-
Amounts of ether in words.

An amount counts the smallest unit, of which `10 ^ 18` make one ether.  Its
text is the whole part, and behind a point the part below one ether without
trailing zeros; the point is left out if nothing follows it.

* `formatEther` — the text of an amount;
* `etherChars` — the same as a list of characters, whole part first.
-/
import ShieldedWallet.Amount

namespace ShieldedWallet

-- Powers of numbers are those of the core library, whatever else is imported.
attribute [local instance (high)] instPowNat

/-- Decimal places of ether. -/
def etherDecimals : Nat := 18

/-- The smallest units in one ether. -/
def etherUnit : Nat := 10 ^ etherDecimals

/-- The `w` low decimal digits of a number, most significant first. -/
def decimalDigits (w n : Nat) : List Char :=
  match w with
  | 0 => []
  | w + 1 => decimalDigits w (n / 10) ++ [Nat.digitChar (n % 10)]

/-- A list without the zeros at its end. -/
def trimZeros (digits : List Char) : List Char := (digits.reverse.dropWhile (· = '0')).reverse

/-- The characters of the text of an amount of ether. -/
def etherChars (wei : Nat) : List Char :=
  let whole := Nat.toDigits 10 (wei / etherUnit)
  let fraction := wei % etherUnit
  if fraction = 0 then whole
  else whole ++ '.' :: trimZeros (decimalDigits etherDecimals fraction)

/-- The text of an amount of ether. -/
def formatEther (wei : Amount) : String := String.ofList (etherChars wei.toNat)

/-- The text of an amount of ether with its unit. -/
def etherText (wei : Amount) : String := formatEther wei ++ " ETH"

end ShieldedWallet
