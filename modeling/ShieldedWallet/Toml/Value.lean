/-
Values of a TOML document.

A document is a table: names with values, each name once.  Beside its entries a
table has a form, which says how it was written and so in which ways the rest
of the document may still add to it.

* `Toml.Value` — values; floats and moments of time are kept without their
  magnitude, since no reader asks for it;
* `Toml.Entries.get?`, `Toml.Value.elements?` — looking into tables and arrays;
* `Toml.Value.fields?` — a value as a record with fields of given names.
-/
namespace ShieldedWallet.Toml

-- Powers of numbers are those of the core library, whatever else is imported.
attribute [local instance (high)] instPowNat

/-- How a table was written. -/
inductive TableForm where
  /-- Under a header of its own, or as the document itself. -/
  | header
  /-- Not by itself, but in the header of a table inside it. -/
  | parent
  /-- By a dotted key that leads through it. -/
  | dotted
  /-- Between braces. -/
  | inline
  deriving DecidableEq

/-- A value. -/
inductive Value where
  | string (text : String)
  | integer (n : Int)
  | float
  | boolean (b : Bool)
  /-- A date, a time, or both. -/
  | moment
  /-- Values between brackets. -/
  | array (elements : List Value)
  | table (form : TableForm) (entries : List (String × Value))
  /-- The tables under repeated double-bracket headers. -/
  | tables (elements : List (List (String × Value)))

/-- The entries of a table. -/
abbrev Entries := List (String × Value)

namespace Entries

/-- The value under a name. -/
def get? (es : Entries) (name : String) : Option Value :=
  (es.find? fun e => e.1 == name).map (·.2)

/-- The entries with another value under a name that is there, or with a new last entry. -/
def set (es : Entries) (name : String) (v : Value) : Entries :=
  match es with
  | [] => [(name, v)]
  | e :: rest => if e.1 = name then (name, v) :: rest else e :: Entries.set rest name v

theorem get?_set_self (es : Entries) (name : String) (v : Value) :
    (es.set name v).get? name = some v := by
  induction es with
  | nil => simp [set, get?]
  | cons e rest ih =>
    by_cases h : e.1 = name
    · simp [set, h, get?]
    · have h' : (e.1 == name) = false := by simpa using h
      simp only [get?] at ih
      simp [set, h, get?, h', ih]

end Entries

namespace Value

/-- The elements of an array, between brackets or under headers. -/
def elements? : Value → Option (List Value)
  | .array vs => some vs
  | .tables ts => some (ts.map (.table .header))
  | _ => none

/-- The entries of a table. -/
def entries? : Value → Option Entries
  | .table _ es => some es
  | _ => none

/-- The text of a string. -/
def text? : Value → Option String
  | .string text => some text
  | _ => none

/-- A number that fits 64 bits without a sign. -/
def word? : Value → Option UInt64
  | .integer n => if 0 ≤ n ∧ n < 2 ^ (64 : Nat) then some (UInt64.ofNat n.toNat) else none
  | _ => none

/-- The values of a record with the given fields.  An array lists them in order,
and a moment of time is a record in which all of them are missing. -/
def fields? (names : List String) : Value → Option (List (Option Value))
  | .moment => some (names.map fun _ => none)
  | v =>
    match v.entries?, v.elements? with
    | some es, _ => some (names.map es.get?)
    | none, some vs => some ((List.range names.length).map (vs[·]?))
    | none, none => none

/-- A table or an array with nothing in it. -/
def isEmpty (v : Value) : Bool :=
  match v.entries?, v.elements? with
  | some es, _ => es.isEmpty
  | none, some vs => vs.isEmpty
  | none, none => false

end Value

end ShieldedWallet.Toml
