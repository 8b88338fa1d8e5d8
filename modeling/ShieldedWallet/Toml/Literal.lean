/-
Literals of a TOML document: strings, numbers, moments of time.

Each reader takes the characters from the first one of the literal on, and
gives the value with the characters behind it, or nothing if the text is wrong.
Where a literal ends early, what is left cannot stand behind a value, so a
document with it is refused as well.

* `Toml.string?` — the four kinds of strings;
* `Toml.number?` — integers in four bases, and floats;
* `Toml.moment?` — dates and times.

Design notes: the readers see one character a line end, `Toml.joinLineEnds`
having taken the carriage returns in front of line feeds away.  One that is
left stands alone, which is allowed nowhere.
-/
import ShieldedWallet.Text.HexDigit
import ShieldedWallet.Toml.Value

namespace ShieldedWallet.Toml

-- Powers of numbers are those of the core library, whatever else is imported.
attribute [local instance (high)] instPowNat

/-! ### Characters -/

/-- The text with a line feed for each line end. -/
def joinLineEnds : List Char → List Char
  | '\r' :: '\n' :: rest => '\n' :: joinLineEnds rest
  | c :: rest => c :: joinLineEnds rest
  | [] => []

/-- A space or a tab. -/
def isBlank (c : Char) : Bool := c = ' ' || c = '\t'

/-- The characters behind leading blanks. -/
def skipBlanks (cs : List Char) : List Char := cs.dropWhile isBlank

/-- A character that may stand in strings and comments: a tab, or none of the control characters. -/
def isTextChar (c : Char) : Bool := c = '\t' || (32 ≤ c.toNat && c.toNat ≠ 127)

/-! ### Strings -/

/-- The character that a letter stands for behind a backslash. -/
def escapedChar? (c : Char) : Option Char :=
  if c = '"' ∨ c = '\\' then some c
  else if c = 'b' then some '\x08'
  else if c = 't' then some '\t'
  else if c = 'n' then some '\n'
  else if c = 'f' then some '\x0c'
  else if c = 'r' then some '\r'
  else none

/-- The character of a code in hexadecimal; halves of surrogate pairs have none. -/
def codedChar? (digits : List Char) : Option Char := do
  let n ← Text.hexNumber? digits
  if n.isValidChar then some (Char.ofNat n) else none

/-- The contents of a string up to its closing mark, and what follows the mark. -/
def basicChars : List Char → Option (List Char × List Char)
  | [] => none
  | '"' :: rest => some ([], rest)
  | '\\' :: 'u' :: a :: b :: c :: d :: rest => do
    let ch ← codedChar? [a, b, c, d]
    let (cs, rest) ← basicChars rest
    return (ch :: cs, rest)
  | '\\' :: 'U' :: a :: b :: c :: d :: e :: f :: g :: h :: rest => do
    let ch ← codedChar? [a, b, c, d, e, f, g, h]
    let (cs, rest) ← basicChars rest
    return (ch :: cs, rest)
  | '\\' :: c :: rest => do
    let ch ← escapedChar? c
    let (cs, rest) ← basicChars rest
    return (ch :: cs, rest)
  | c :: rest =>
    if isTextChar c && c ≠ '\\' then do
      let (cs, rest) ← basicChars rest
      return (c :: cs, rest)
    else none

/-- Only blanks stand in front of the line end. -/
def endsLine (cs : List Char) : Bool := (skipBlanks cs).head? = some '\n'

/-- The contents of a string over several lines up to its closing marks, and what follows them.
While `folding`, blanks and line ends are passed over. -/
def multilineChars : (folding : Bool) → List Char → Option (List Char × List Char)
  | _, [] => none
  | folding, c :: rest =>
    if folding && (isBlank c || c = '\n') then multilineChars true rest
    else if c = '"' then
      match rest with
      | '"' :: '"' :: '"' :: '"' :: rest => some (['"', '"'], rest)
      | '"' :: '"' :: '"' :: rest => some (['"'], rest)
      | '"' :: '"' :: rest => some ([], rest)
      | rest => (multilineChars false rest).map fun (cs, rest) => ('"' :: cs, rest)
    else if c = '\\' then
      match rest with
      | 'u' :: a :: b :: c :: d :: rest => do
        let ch ← codedChar? [a, b, c, d]
        let (cs, rest) ← multilineChars false rest
        return (ch :: cs, rest)
      | 'U' :: a :: b :: c :: d :: e :: f :: g :: h :: rest => do
        let ch ← codedChar? [a, b, c, d, e, f, g, h]
        let (cs, rest) ← multilineChars false rest
        return (ch :: cs, rest)
      | c :: rest =>
        if endsLine (c :: rest) then multilineChars true rest
        else do
          let ch ← escapedChar? c
          let (cs, rest) ← multilineChars false rest
          return (ch :: cs, rest)
      | [] => none
    else if isTextChar c || c = '\n' then
      (multilineChars false rest).map fun (cs, rest) => (c :: cs, rest)
    else none

/-- The contents of a literal string up to its closing mark, and what follows the mark. -/
def literalChars (cs : List Char) : Option (List Char × List Char) :=
  let isContent := fun c => isTextChar c && c ≠ '\''
  match cs.dropWhile isContent with
  | '\'' :: rest => some (cs.takeWhile isContent, rest)
  | _ => none

/-- The contents of a literal string over several lines up to its closing marks, and what follows
them. -/
def multilineLiteralChars : List Char → Option (List Char × List Char)
  | [] => none
  | '\'' :: '\'' :: '\'' :: '\'' :: '\'' :: rest => some (['\'', '\''], rest)
  | '\'' :: '\'' :: '\'' :: '\'' :: rest => some (['\''], rest)
  | '\'' :: '\'' :: '\'' :: rest => some ([], rest)
  | c :: rest =>
    if isTextChar c || c = '\n' then
      (multilineLiteralChars rest).map fun (cs, rest) => (c :: cs, rest)
    else none

/-- The characters behind a line end that stands at the front. -/
def skipLineEnd : List Char → List Char
  | '\n' :: rest => rest
  | cs => cs

/-- A string on one line. -/
def lineString? : List Char → Option (String × List Char)
  | '"' :: rest => (basicChars rest).map fun (cs, rest) => (String.ofList cs, rest)
  | '\'' :: rest => (literalChars rest).map fun (cs, rest) => (String.ofList cs, rest)
  | _ => none

/-- A string; behind three opening marks a line end does not count. -/
def string? : List Char → Option (String × List Char)
  | '"' :: '"' :: '"' :: rest =>
    (multilineChars false (skipLineEnd rest)).map fun (cs, rest) => (String.ofList cs, rest)
  | '\'' :: '\'' :: '\'' :: rest =>
    (multilineLiteralChars (skipLineEnd rest)).map fun (cs, rest) => (String.ofList cs, rest)
  | cs => lineString? cs

/-! ### Numbers -/

/-- Further digits of a number, each behind one underscore at most, and what follows them. -/
def moreDigits (isDigit : Char → Bool) : List Char → List Char × List Char
  | [] => ([], [])
  | '_' :: c :: rest =>
    if isDigit c then
      let (ds, rest) := moreDigits isDigit rest
      (c :: ds, rest)
    else ([], '_' :: c :: rest)
  | c :: rest =>
    if isDigit c then
      let (ds, rest) := moreDigits isDigit rest
      (c :: ds, rest)
    else ([], c :: rest)

/-- At least one digit, single underscores between digits, and what follows them. -/
def digits? (isDigit : Char → Bool) : List Char → Option (List Char × List Char)
  | [] => none
  | c :: rest =>
    if isDigit c then
      let (ds, rest) := moreDigits isDigit rest
      some (c :: ds, rest)
    else none

/-- A digit below the base. -/
def isDigitBelow (base : Nat) (c : Char) : Bool := (Text.hexValue? c).any (· < base)

/-- The number that digits of a base write, the first of them counting most. -/
def numberOf (base : Nat) (digits : List Char) : Nat :=
  digits.foldl (fun n c => base * n + (Text.hexValue? c).getD 0) 0

/-- The integer as a value, if it fits 64 bits with a sign. -/
def integerOf? (n : Int) : Option Value :=
  if -2 ^ (63 : Nat) ≤ n ∧ n < 2 ^ (63 : Nat) then some (.integer n) else none

/-- An integer in the base that stands in front of it. -/
def basedInteger? (base : Nat) (cs : List Char) : Option (Value × List Char) := do
  let (ds, rest) ← digits? (isDigitBelow base) cs
  let v ← integerOf? (numberOf base ds)
  return (v, rest)

/-- The digits in front of the point: a lone zero, or no zero at the front. -/
def wholeDigits? : List Char → Option (List Char × List Char)
  | '0' :: rest => some (['0'], rest)
  | cs => digits? Char.isDigit cs

/-- The digits behind a point, none if there is no point. -/
def fraction? : List Char → Option (List Char × List Char)
  | '.' :: rest => digits? Char.isDigit rest
  | cs => some ([], cs)

/-- The exponent, zero if there is none. -/
def exponent? : List Char → Option (Int × List Char)
  | [] => some (0, [])
  | c :: rest =>
    if c = 'e' ∨ c = 'E' then
      let (negative, rest) := match rest with
        | '-' :: rest => (true, rest)
        | '+' :: rest => (false, rest)
        | rest => (false, rest)
      (digits? Char.isDigit rest).map fun (ds, rest) =>
        (if negative then -(numberOf 10 ds : Int) else numberOf 10 ds, rest)
    else some (0, c :: rest)

/-- The count of decimal digits of a number, none for zero. -/
def decimalLength (n : Nat) : Nat := if n = 0 then 0 else (Nat.toDigits 10 n).length

/-- The decimal `n` times ten to the `e` is too large for a float of 64 bits: it rounds past the
largest of them, `(2 ^ 53 - 1) * 2 ^ 971`. -/
def isInfinite (n : Nat) (e : Int) : Bool :=
  let limit := (2 ^ (54 : Nat) - 1) * 2 ^ (970 : Nat)
  if n = 0 then false
  else if (decimalLength n : Int) + e < 308 then false
  else if 310 < (decimalLength n : Int) + e then true
  else if 0 ≤ e then limit ≤ n * 10 ^ e.toNat
  else limit * 10 ^ (-e).toNat ≤ n

/-- A number in base ten behind its sign.  Floats without a minus must not be infinite. -/
def decimal? (negative : Bool) (cs : List Char) : Option (Value × List Char) := do
  let (whole, afterWhole) ← wholeDigits? cs
  let (fraction, afterFraction) ← fraction? afterWhole
  let (exponent, rest) ← exponent? afterFraction
  if rest.length = afterWhole.length then
    let n := numberOf 10 whole
    let v ← integerOf? (if negative then -(n : Int) else n)
    return (v, rest)
  else
    let n := numberOf 10 (whole ++ fraction)
    if !negative && isInfinite n (exponent - fraction.length) then none
    else return (.float, rest)

/-- A number behind its sign. -/
def signed? (negative : Bool) : List Char → Option (Value × List Char)
  | 'i' :: 'n' :: 'f' :: rest => some (.float, rest)
  | 'n' :: 'a' :: 'n' :: rest => some (.float, rest)
  | cs => decimal? negative cs

/-- A number; a base other than ten takes no sign. -/
def number? : List Char → Option (Value × List Char)
  | '0' :: 'x' :: rest => basedInteger? 16 rest
  | '0' :: 'o' :: rest => basedInteger? 8 rest
  | '0' :: 'b' :: rest => basedInteger? 2 rest
  | '+' :: rest => signed? false rest
  | '-' :: rest => signed? true rest
  | cs => signed? false cs

/-! ### Moments -/

/-- The days of a month. -/
def daysIn (year month : Nat) : Nat :=
  if month = 2 then
    if year % 4 = 0 ∧ (year % 100 ≠ 0 ∨ year % 400 = 0) then 29 else 28
  else if month ∈ [4, 6, 9, 11] then 30
  else 31

/-- A number of two digits between two bounds. -/
def twoDigits? (low high : Nat) (a b : Char) : Option Nat :=
  let n := numberOf 10 [a, b]
  if a.isDigit && b.isDigit && low ≤ n && n ≤ high then some n else none

/-- A date begins here: four digits and a dash. -/
def startsDate : List Char → Bool
  | a :: b :: c :: d :: '-' :: _ => [a, b, c, d].all Char.isDigit
  | _ => false

/-- A time begins here: two digits and a colon. -/
def startsTime : List Char → Bool
  | a :: b :: ':' :: _ => a.isDigit && b.isDigit
  | _ => false

/-- What follows a date. -/
def skipDate? : List Char → Option (List Char)
  | y₁ :: y₂ :: y₃ :: y₄ :: '-' :: m₁ :: m₂ :: '-' :: d₁ :: d₂ :: rest => do
    let month ← twoDigits? 1 12 m₁ m₂
    let _ ← twoDigits? 1 (daysIn (numberOf 10 [y₁, y₂, y₃, y₄]) month) d₁ d₂
    return rest
  | _ => none

/-- What follows a time of the day; a minute may have sixty-one seconds. -/
def skipTime? : List Char → Option (List Char)
  | h₁ :: h₂ :: ':' :: m₁ :: m₂ :: ':' :: s₁ :: s₂ :: rest => do
    let _ ← twoDigits? 0 23 h₁ h₂
    let _ ← twoDigits? 0 59 m₁ m₂
    let _ ← twoDigits? 0 60 s₁ s₂
    match rest with
    | '.' :: c :: rest => if c.isDigit then some (rest.dropWhile Char.isDigit) else none
    | rest => some rest
  | _ => none

/-- What follows the distance from universal time, if one is given. -/
def skipOffset? : List Char → Option (List Char)
  | 'Z' :: rest => some rest
  | 'z' :: rest => some rest
  | c :: h₁ :: h₂ :: ':' :: m₁ :: m₂ :: rest =>
    if c = '+' ∨ c = '-' then do
      let _ ← twoDigits? 0 23 h₁ h₂
      let _ ← twoDigits? 0 59 m₁ m₂
      return rest
    else some (c :: h₁ :: h₂ :: ':' :: m₁ :: m₂ :: rest)
  | cs => some cs

/-- A letter or a blank between a date and a time. -/
def joinsTime (c : Char) : Bool := c = 'T' || c = 't' || c = ' '

/-- What follows a date, a time, or both with a distance from universal time. -/
def skipMoment? (cs : List Char) : Option (List Char) :=
  if startsDate cs then do
    let rest ← skipDate? cs
    match rest with
    | c :: time =>
      if joinsTime c && startsTime time then (skipTime? time).bind skipOffset? else some rest
    | [] => some []
  else skipTime? cs

/-- A date, a time, or both. -/
def moment? (cs : List Char) : Option (Value × List Char) :=
  (skipMoment? cs).map fun rest => (.moment, rest)

/-! ### Any of them -/

/-- A number or a moment. -/
def numeral? (cs : List Char) : Option (Value × List Char) :=
  if startsDate cs || startsTime cs then moment? cs else number? cs

end ShieldedWallet.Toml
