/-
Writing a string of a TOML document.

There are four ways to write a string: between single or triple marks, and of
either kind with escapes or without.  The first that can show the text as it is
gets chosen; a text that none of them can show is written with escapes.

* `Toml.quote` — the text between its marks.

Design notes: marks come in runs, and what a string may hold depends on its
longest run.  An escaped mark ends a run.
-/
namespace ShieldedWallet.Toml

/-- The length of the longest run of a mark, `run` of them standing in front. -/
def longestRun (mark : Char) (run : Nat) : List Char → Nat
  | [] => run
  | c :: rest =>
    if c = mark then longestRun mark (run + 1) rest
    else max run (longestRun mark 0 rest)

/-- A control character, tabs and line feeds apart. -/
def needsCode (c : Char) : Bool := (c.toNat < 32 && c ≠ '\t' && c ≠ '\n') || c.toNat = 127

/-- Four hexadecimal digits in upper case. -/
def fourHexDigits (n : Nat) : List Char :=
  [n / 4096, n / 256, n / 16, n].map fun d => "0123456789ABCDEF".toList.getD (d % 16) '0'

/-- The characters that stand for a character, marks apart.  Over several lines a line feed stands
for itself. -/
def escapeChar (multiline : Bool) (c : Char) : List Char :=
  if c = '\x08' then ['\\', 'b']
  else if c = '\t' then ['\\', 't']
  else if c = '\n' && !multiline then ['\\', 'n']
  else if c = '\x0c' then ['\\', 'f']
  else if c = '\r' then ['\\', 'r']
  else if c = '\\' then ['\\', '\\']
  else if needsCode c then '\\' :: 'u' :: fourHexDigits c.toNat
  else [c]

/-- The characters between the marks.  A mark is escaped if `allowed` others stand in front of it,
`run` being the count of those that do. -/
def escapeChars (multiline : Bool) (allowed run : Nat) : List Char → List Char
  | [] => []
  | '"' :: rest =>
    if run < allowed then '"' :: escapeChars multiline allowed (run + 1) rest
    else '\\' :: '"' :: escapeChars multiline allowed 0 rest
  | c :: rest => escapeChar multiline c ++ escapeChars multiline allowed 0 rest

/-- The line end behind opening marks, which does not count: for a text of several lines. -/
def openingLine (cs : List Char) : List Char := if '\n' ∈ cs then ['\n'] else []

/-- The text between single marks, with escapes. -/
def basic (cs : List Char) : List Char := ['"'] ++ escapeChars false 0 0 cs ++ ['"']

/-- The text between triple marks, with escapes. -/
def multilineBasic (cs : List Char) : List Char :=
  ['"', '"', '"'] ++ openingLine cs ++ escapeChars true 2 0 cs ++ ['"', '"', '"']

/-- The text between single marks, as it is. -/
def literal (cs : List Char) : List Char := ['\''] ++ cs ++ ['\'']

/-- The text between triple marks, as it is. -/
def multilineLiteral (cs : List Char) : List Char :=
  ['\'', '\'', '\''] ++ openingLine cs ++ cs ++ ['\'', '\'', '\'']

/-- The characters of a string with its marks. -/
def quoteChars (cs : List Char) : List Char :=
  let doubleRun := longestRun '"' 0 cs
  let singleRun := longestRun '\'' 0 cs
  let escaped := '\\' ∈ cs
  let lines := '\n' ∈ cs
  if cs.any needsCode then
    if lines then multilineBasic cs else basic cs
  else if !escaped ∧ doubleRun = 0 ∧ !lines then basic cs
  else if singleRun = 0 ∧ !lines then literal cs
  else if !escaped ∧ doubleRun ≤ 2 then multilineBasic cs
  else if singleRun ≤ 2 then multilineLiteral cs
  else if lines then multilineBasic cs
  else basic cs

/-- A string with its marks. -/
def quote (text : String) : String := String.ofList (quoteChars text.toList)

end ShieldedWallet.Toml
