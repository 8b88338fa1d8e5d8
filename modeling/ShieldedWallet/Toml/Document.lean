/-
Reading a TOML document.

A document is a sequence of lines: headers, keys with values, comments and
empty lines.  A header opens a table, and the keys below it belong to that
table.  Reading gives the whole document or nothing.

* `Toml.value?` — a value;
* `Toml.parse?` — the table that a document writes.

Design notes: a dotted key has fewer than eighty names, and arrays and tables
between braces are nested less than eighty deep.  The recursion is bounded by
the length of the text, as every step takes a character off it.
-/
import ShieldedWallet.Toml.Entries
import ShieldedWallet.Toml.Literal

namespace ShieldedWallet.Toml

/-- Dotted keys are shorter and values less deeply nested than this. -/
def nestingLimit : Nat := 80

/-! ### Keys -/

/-- A character of a name without quotes. -/
def isNameChar (c : Char) : Bool := c.isAlphanum || c = '_' || c = '-'

/-- A name, with or without quotes. -/
def name? (cs : List Char) : Option (String × List Char) :=
  match cs with
  | '"' :: _ => lineString? cs
  | '\'' :: _ => lineString? cs
  | _ =>
    let word := cs.takeWhile isNameChar
    if word.isEmpty then none else some (String.ofList word, cs.dropWhile isNameChar)

/-- A dotted key of at most `count` names, as the names in front of the last one and the last one,
and what follows the blanks behind it. -/
def key? : (count : Nat) → List Char → Option (List String × String × List Char)
  | 0, _ => none
  | count + 1, cs => do
    let (name, rest) ← name? (skipBlanks cs)
    match skipBlanks rest with
    | '.' :: rest =>
      let (path, last, rest) ← key? count rest
      return (name :: path, last, rest)
    | rest => return ([], name, rest)

/-! ### Values -/

/-- What follows a comment, if one stands at the front. -/
def skipComment : List Char → List Char
  | '#' :: rest => rest.dropWhile isTextChar
  | cs => cs

/-- What follows blanks, line ends and comments that end their line. -/
def skipSpace : (fuel : Nat) → List Char → List Char
  | 0, cs => cs
  | fuel + 1, cs =>
    match skipBlanks cs with
    | '\n' :: rest => skipSpace fuel rest
    | '#' :: rest =>
      match rest.dropWhile isTextChar with
      | '\n' :: rest => skipSpace fuel rest
      | rest => rest
    | cs => cs

mutual

/-- A value at the front, with less than `depth` levels of brackets and braces, and what follows
it. -/
def value? : (fuel depth : Nat) → List Char → Option (Value × List Char)
  | 0, _, _ => none
  | fuel + 1, depth, cs =>
    match cs with
    | '"' :: _ => (string? cs).map fun (text, rest) => (.string text, rest)
    | '\'' :: _ => (string? cs).map fun (text, rest) => (.string text, rest)
    | 't' :: 'r' :: 'u' :: 'e' :: rest => some (.boolean true, rest)
    | 'f' :: 'a' :: 'l' :: 's' :: 'e' :: rest => some (.boolean false, rest)
    | '[' :: rest =>
      if depth ≤ 1 then none
      else
        match skipSpace rest.length rest with
        | ']' :: rest => some (.array [], rest)
        | rest => (elements? fuel (depth - 1) rest).map fun (vs, rest) => (.array vs, rest)
    | '\x7b' :: rest =>
      if depth ≤ 1 then none
      else
        match skipBlanks rest with
        | '\x7d' :: rest => some (.table .inline [], rest)
        | rest =>
          (members? fuel (depth - 1) [] rest).map fun (es, rest) => (.table .inline es, rest)
    | _ => numeral? cs

/-- The elements of an array up to its closing bracket; a comma may follow the last one. -/
def elements? : (fuel depth : Nat) → List Char → Option (List Value × List Char)
  | 0, _, _ => none
  | fuel + 1, depth, cs => do
    let (v, rest) ← value? fuel depth cs
    match skipSpace rest.length rest with
    | ']' :: rest => return ([v], rest)
    | ',' :: rest =>
      match skipSpace rest.length rest with
      | ']' :: rest => return ([v], rest)
      | rest =>
        let (vs, rest) ← elements? fuel depth rest
        return (v :: vs, rest)
    | _ => none

/-- The entries of a table up to its closing brace, behind those that are read already. -/
def members? : (fuel depth : Nat) → Entries → List Char → Option (Entries × List Char)
  | 0, _, _, _ => none
  | fuel + 1, depth, es, cs => do
    let (path, name, rest) ← key? (nestingLimit - 1) cs
    match rest with
    | '=' :: rest =>
      let (v, rest) ← value? fuel depth (skipBlanks rest)
      let es ← es.insert? path name v
      match skipBlanks rest with
      | '\x7d' :: rest => return (es, rest)
      | ',' :: rest => members? fuel depth es rest
      | _ => none
    | _ => none

end

/-! ### Lines -/

/-- A document that has been read up to some line. -/
structure Draft where
  /-- The entries so far. -/
  entries : Entries := []
  /-- The names in the last header. -/
  header : List String := []

/-- What follows the end of a line, in front of which blanks and a comment may stand. -/
def lineEnd? (cs : List Char) : Option (List Char) :=
  match skipComment (skipBlanks cs) with
  | [] => some []
  | '\n' :: rest => some rest
  | _ => none

namespace Draft

/-- A header between double brackets, behind the opening ones. -/
def elementHeader? (d : Draft) (cs : List Char) : Option (Draft × List Char) := do
  let (path, name, rest) ← key? (nestingLimit - 1) cs
  match rest with
  | ']' :: ']' :: rest =>
    let rest ← lineEnd? rest
    let entries ← d.entries.openElement? path name
    return (⟨entries, path ++ [name]⟩, rest)
  | _ => none

/-- A header between brackets, behind the opening one. -/
def tableHeader? (d : Draft) (cs : List Char) : Option (Draft × List Char) := do
  let (path, name, rest) ← key? (nestingLimit - 1) cs
  match rest with
  | ']' :: rest =>
    let rest ← lineEnd? rest
    let entries ← d.entries.openTable? path name
    return (⟨entries, path ++ [name]⟩, rest)
  | _ => none

/-- A key with its value. -/
def assignment? (d : Draft) (cs : List Char) : Option (Draft × List Char) := do
  let (path, name, rest) ← key? (nestingLimit - 1) cs
  match rest with
  | '=' :: rest =>
    let (v, rest) ← value? (rest.length + 1) nestingLimit (skipBlanks rest)
    let rest ← lineEnd? rest
    let entries ← d.entries.insertUnder? d.header path name v
    return (⟨entries, d.header⟩, rest)
  | _ => none

/-- One line. -/
def line? (d : Draft) (cs : List Char) : Option (Draft × List Char) :=
  match skipBlanks cs with
  | [] => some (d, [])
  | '\n' :: rest => some (d, rest)
  | '#' :: rest => (lineEnd? ('#' :: rest)).map fun rest => (d, rest)
  | '[' :: '[' :: rest => d.elementHeader? rest
  | '[' :: rest => d.tableHeader? rest
  | cs => d.assignment? cs

/-- All lines. -/
def lines? : (fuel : Nat) → Draft → List Char → Option Draft
  | _, d, [] => some d
  | 0, _, _ => none
  | fuel + 1, d, cs => do
    let (d, rest) ← d.line? cs
    lines? fuel d rest

end Draft

/-- The characters behind a byte order mark that stands at the front. -/
def skipByteOrderMark : List Char → List Char
  | '\ufeff' :: rest => rest
  | cs => cs

/-- The entries of the table that a document writes. -/
def parse? (text : String) : Option Entries :=
  let cs := joinLineEnds (skipByteOrderMark text.toList)
  (Draft.lines? cs.length {} cs).map Draft.entries

end ShieldedWallet.Toml
