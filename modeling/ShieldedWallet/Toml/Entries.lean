/-
Adding to the tables of a TOML document.

A path of names leads from a table into tables inside it; those that are not
there yet come into being on the way, and a list of tables is entered at its
last one.  What is there already may refuse: a name is given once, a table
between braces is complete, dotted keys do not add to a table that has a
header, and a header does not name a table that dotted keys have begun.

* `Toml.Entries.insert?` — a value under a dotted key;
* `Toml.Entries.openTable?` — the table of a header;
* `Toml.Entries.openElement?` — one more table of a list;
* `Toml.Entries.insertUnder?` — a value under a dotted key in the table that
  was opened last.
-/
import ShieldedWallet.Toml.Value

namespace ShieldedWallet.Toml

namespace Entries

/-- Changes the table that a path leads to from a table of the given form, entering the tables on
the way in the manner `form`. -/
def modify? (form : TableForm) (change : TableForm → Entries → Option Entries) :
    List String → TableForm → Entries → Option Entries
  | [], here, es => change here es
  | name :: path, _, es =>
    match es.get? name with
    | none => do
      let inner ← modify? form change path form []
      return es.set name (.table form inner)
    | some (.table there inner) =>
      if there = .inline ∨ (form = .dotted ∧ there = .header) then none
      else do
        let inner ← modify? form change path there inner
        return es.set name (.table there inner)
    | some (.tables ts) =>
      match ts.getLast? with
      | some inner => do
        let inner ← modify? form change path .header inner
        return es.set name (.tables (ts.dropLast ++ [inner]))
      | none => none
    | some _ => none

/-- A value under a dotted key, given as the names in front of the last one and the last one. -/
def insert? (path : List String) (name : String) (v : Value) (es : Entries) : Option Entries :=
  modify? .dotted (fun here es =>
    if here = .dotted ↔ path = [] then none
    else if (es.get? name).isSome then none
    else some (es.set name v)) path .header es

/-- The table of a header comes into being, or is the one that other headers have led through. -/
def openTable? (path : List String) (name : String) (es : Entries) : Option Entries :=
  modify? .parent (fun _ es =>
    match es.get? name with
    | none => some (es.set name (.table .header []))
    | some (.table .parent inner) => some (es.set name (.table .header inner))
    | some _ => none) path .header es

/-- One more table, empty so far, in the list under a header. -/
def openElement? (path : List String) (name : String) (es : Entries) : Option Entries :=
  modify? .parent (fun _ es =>
    match es.get? name with
    | none => some (es.set name (.tables [[]]))
    | some (.tables ts) => some (es.set name (.tables (ts ++ [[]])))
    | some _ => none) path .header es

/-- A value under a dotted key in the table, or the last of the tables, of a header. -/
def insertUnder? (header path : List String) (name : String) (v : Value) (es : Entries) :
    Option Entries :=
  modify? .parent (fun _ es => insert? path name v es) header .header es

end Entries

end ShieldedWallet.Toml
