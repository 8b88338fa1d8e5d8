/-
Reading JSON.

`Json.parse?` reads one value with blanks around it and nothing else.  Names
of members may repeat; all of them are kept, in order.

* `Json.Value` — values; numbers are kept without their magnitude, since no
  reader asks for it;
* `Json.parse?` — the value that a text writes.

Design notes: a string may escape half of a surrogate pair.  It then has no
text, which only matters to a reader that wants the text, so such strings are
kept as `none`.  The recursion is bounded by the length of the text, as every
step takes a character off it.
-/
import ShieldedWallet.Text.HexDigit

namespace ShieldedWallet.Json

/-- A value. -/
inductive Value where
  | null
  | bool (b : Bool)
  | number
  /-- A string, `none` if it has half of a surrogate pair in it. -/
  | string (text : Option String)
  | array (elements : List Value)
  | object (members : List (Option String × Value))

/-! ### Strings -/

/-- The character that a letter stands for behind a backslash. -/
def escapedChar? (c : Char) : Option Char :=
  if c = '"' ∨ c = '\\' ∨ c = '/' then some c
  else if c = 'b' then some '\x08'
  else if c = 'f' then some '\x0c'
  else if c = 'n' then some '\n'
  else if c = 'r' then some '\r'
  else if c = 't' then some '\t'
  else none

/-- The codes of a string up to its closing mark, and what follows the mark.  Characters outside
the first 65536 codes count as one code. -/
def stringCodes : List Char → Option (List Nat × List Char)
  | [] => none
  | '"' :: rest => some ([], rest)
  | '\\' :: 'u' :: a :: b :: c :: d :: rest => do
    let n ← Text.hexNumber? [a, b, c, d]
    let (codes, rest) ← stringCodes rest
    return (n :: codes, rest)
  | '\\' :: c :: rest => do
    let c ← escapedChar? c
    let (codes, rest) ← stringCodes rest
    return (c.toNat :: codes, rest)
  | c :: rest =>
    if c = '\\' ∨ c.toNat < 32 then none
    else do
      let (codes, rest) ← stringCodes rest
      return (c.toNat :: codes, rest)

/-- The first half of a surrogate pair. -/
def isHighSurrogate (n : Nat) : Bool := 0xD800 ≤ n && n < 0xDC00

/-- The second half of a surrogate pair. -/
def isLowSurrogate (n : Nat) : Bool := 0xDC00 ≤ n && n < 0xE000

/-- The characters that codes write, surrogate pairs being one character. -/
def charsOfCodes : List Nat → Option (List Char)
  | [] => some []
  | high :: low :: rest =>
    if isHighSurrogate high then
      if isLowSurrogate low then
        (charsOfCodes rest).map
          (Char.ofNat (0x10000 + (high - 0xD800) * 0x400 + (low - 0xDC00)) :: ·)
      else none
    else if isLowSurrogate high then none
    else (charsOfCodes (low :: rest)).map (Char.ofNat high :: ·)
  | [n] => if isHighSurrogate n || isLowSurrogate n then none else some [Char.ofNat n]

/-- The text of a string behind its opening mark, and what follows its closing mark. -/
def string? (cs : List Char) : Option (Option String × List Char) := do
  let (codes, rest) ← stringCodes cs
  return ((charsOfCodes codes).map String.ofList, rest)

/-! ### Numbers -/

/-- What follows a run of at least one digit. -/
def skipDigits? (cs : List Char) : Option (List Char) :=
  match cs with
  | [] => none
  | c :: rest => if c.isDigit then some (rest.dropWhile Char.isDigit) else none

/-- What follows the digits behind a point, if there is a point. -/
def skipFraction? (cs : List Char) : Option (List Char) :=
  match cs with
  | '.' :: rest => skipDigits? rest
  | _ => some cs

/-- What follows an exponent, if there is one. -/
def skipExponent? (cs : List Char) : Option (List Char) :=
  match cs with
  | c :: rest =>
    if c = 'e' ∨ c = 'E' then
      match rest with
      | '+' :: digits => skipDigits? digits
      | '-' :: digits => skipDigits? digits
      | _ => skipDigits? rest
    else some cs
  | [] => some cs

/-- What follows a number without its sign. -/
def skipUnsigned? (cs : List Char) : Option (List Char) :=
  match cs with
  | '0' :: rest => (skipFraction? rest).bind skipExponent?
  | _ => ((skipDigits? cs).bind skipFraction?).bind skipExponent?

/-- What follows a number. -/
def skipNumber? (cs : List Char) : Option (List Char) :=
  match cs with
  | '-' :: rest => skipUnsigned? rest
  | _ => skipUnsigned? cs

/-! ### Values -/

/-- A blank between tokens. -/
def isBlank (c : Char) : Bool := c = ' ' || c = '\t' || c = '\n' || c = '\r'

/-- The characters behind leading blanks. -/
def skipBlanks (cs : List Char) : List Char := cs.dropWhile isBlank

mutual

/-- A value at the front, and what follows it. -/
def value? : (fuel : Nat) → List Char → Option (Value × List Char)
  | 0, _ => none
  | fuel + 1, cs =>
    match skipBlanks cs with
    | 'n' :: 'u' :: 'l' :: 'l' :: rest => some (.null, rest)
    | 't' :: 'r' :: 'u' :: 'e' :: rest => some (.bool true, rest)
    | 'f' :: 'a' :: 'l' :: 's' :: 'e' :: rest => some (.bool false, rest)
    | '"' :: rest => (string? rest).map fun (text, rest) => (.string text, rest)
    | '[' :: rest =>
      match skipBlanks rest with
      | ']' :: rest => some (.array [], rest)
      | _ => (elements? fuel rest).map fun (vs, rest) => (.array vs, rest)
    | '\x7b' :: rest =>
      match skipBlanks rest with
      | '\x7d' :: rest => some (.object [], rest)
      | _ => (members? fuel rest).map fun (ms, rest) => (.object ms, rest)
    | cs => (skipNumber? cs).map fun rest => (.number, rest)

/-- The elements of an array up to its closing bracket. -/
def elements? : (fuel : Nat) → List Char → Option (List Value × List Char)
  | 0, _ => none
  | fuel + 1, cs => do
    let (v, rest) ← value? fuel cs
    match skipBlanks rest with
    | ']' :: rest => return ([v], rest)
    | ',' :: rest =>
      let (vs, rest) ← elements? fuel rest
      return (v :: vs, rest)
    | _ => none

/-- The members of an object up to its closing brace. -/
def members? : (fuel : Nat) → List Char → Option (List (Option String × Value) × List Char)
  | 0, _ => none
  | fuel + 1, cs =>
    match skipBlanks cs with
    | '"' :: rest => do
      let (name, rest) ← string? rest
      match skipBlanks rest with
      | ':' :: rest =>
        let (v, rest) ← value? fuel rest
        match skipBlanks rest with
        | '\x7d' :: rest => return ([(name, v)], rest)
        | ',' :: rest =>
          let (ms, rest) ← members? fuel rest
          return ((name, v) :: ms, rest)
        | _ => none
      | _ => none
    | _ => none

end

/-- The value that a text writes, with blanks around it. -/
def parse? (text : String) : Option Value :=
  let cs := text.toList
  match value? (cs.length + 1) cs with
  | some (v, rest) => if (skipBlanks rest).isEmpty then some v else none
  | none => none

/-! ### Decoding -/

/-- The text of a string that has one. -/
def Value.text? : Value → Option String
  | .string text => text
  | _ => none

/-- The elements of an array. -/
def Value.elements? : Value → Option (List Value)
  | .array vs => some vs
  | _ => none

/-- The texts of an array of strings. -/
def Value.texts? (v : Value) : Option (List String) := do
  let vs ← v.elements?
  vs.mapM Value.text?

end ShieldedWallet.Json
