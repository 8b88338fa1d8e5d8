/-
A single character in quotes, for messages.

`quoteChar` puts a character between apostrophes and writes characters that
would not show, or would be mistaken for the quotes, as escapes: the usual
short ones, and otherwise the code in hexadecimal.

Design notes: messages quote characters of the first 256 codes only, and the
decision which of them show is taken for that range; every later character is
written as it is.
-/
namespace ShieldedWallet.Text

/-- The character shows on paper; above the first 256 codes this is taken for granted. -/
def isVisible (c : Char) : Bool :=
  let n := c.toNat
  (32 ≤ n && n < 127) || (160 < n && n ≠ 173)

/-- The code of a character in hexadecimal, without leading zeros. -/
def hexCode (c : Char) : String := String.ofList (Nat.toDigits 16 c.toNat)

/-- The character as it stands between the quotes. -/
def escapeChar (c : Char) : String :=
  if c = '\x00' then "\\0"
  else if c = '\t' then "\\t"
  else if c = '\r' then "\\r"
  else if c = '\n' then "\\n"
  else if c = '\'' then "\\'"
  else if c = '\\' then "\\\\"
  else if isVisible c then c.toString
  else "\\u\x7b" ++ hexCode c ++ "\x7d"

/-- The character in quotes. -/
def quoteChar (c : Char) : String := "'" ++ escapeChar c ++ "'"

end ShieldedWallet.Text
