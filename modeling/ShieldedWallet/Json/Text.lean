/-
JSON text of strings and arrays of strings.

A string is written between quotation marks.  A quotation mark, a backslash and
the characters below the space are escaped, five of the latter by a letter and
the others by their code; everything else stands as it is.

* `Json.quoteChars` — the characters of a quoted string;
* `Json.array`, `Json.object` — compact text from the texts of the parts.
-/
namespace ShieldedWallet.Json

/-- A hexadecimal digit in lower case. -/
def hexDigit (n : Nat) : Char := "0123456789abcdef".toList.getD n '0'

/-- The characters that stand for a character inside a quoted string. -/
def escapeChar (c : Char) : List Char :=
  if c = '"' then ['\\', '"']
  else if c = '\\' then ['\\', '\\']
  else if c = '\x08' then ['\\', 'b']
  else if c = '\t' then ['\\', 't']
  else if c = '\n' then ['\\', 'n']
  else if c = '\x0c' then ['\\', 'f']
  else if c = '\r' then ['\\', 'r']
  else if c.toNat < 32 then
    ['\\', 'u', '0', '0', hexDigit (c.toNat / 16), hexDigit (c.toNat % 16)]
  else [c]

/-- The characters of a quoted string. -/
def quoteChars (cs : List Char) : List Char := '"' :: cs.flatMap escapeChar ++ ['"']

/-- The quoted string of a text. -/
def quote (text : String) : String := String.ofList (quoteChars text.toList)

/-- The array whose elements have the given texts. -/
def array (elements : List String) : String := "[" ++ ",".intercalate elements ++ "]"

/-- The object whose members have the given names and texts. -/
def object (members : List (String × String)) : String :=
  "\x7b" ++ ",".intercalate (members.map fun (name, value) => quote name ++ ":" ++ value) ++ "\x7d"

end ShieldedWallet.Json
