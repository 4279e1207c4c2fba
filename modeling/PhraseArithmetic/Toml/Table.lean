/-!
# Values and tables

A table remembers how it came to be, because that decides what may be added to it: an inline table
is closed, a table with a header takes sub-tables but no dotted keys from outside, a table implied
by a longer header may still get a header of its own, and a table made by dotted keys only grows by
dotted keys or sub-tables.
-/
namespace PhraseArithmetic.Toml

inductive Origin where
  | inline
  | header
  | implied
  | dotted
  deriving DecidableEq, Repr

inductive Value where
  | text (value : String)
  | integer (value : Int)
  | float
  | boolean (value : Bool)
  | moment
  | array (elements : List Value)
  | table (origin : Origin) (entries : List (String × Value))
  /-- An array of tables, each with a header; it is never empty. -/
  | tables (elements : List (List (String × Value)))
  deriving Repr

abbrev Entries := List (String × Value)

namespace Entries

/-- Gives a key that is present another value, in its place. -/
def replace (key : String) (v : Value) (es : Entries) : Entries :=
  es.map fun e => if e.1 = key then (key, v) else e

/-- Changes the table at the end of a path; tables missing on the way are made with `made`. -/
def updateAt (made : Origin) (change : Origin → Entries → Option Entries) (origin : Origin) :
    List String → Entries → Option Entries
  | [], es => change origin es
  | key :: path, es =>
    match es.lookup key with
    | none => do
      let inner ← updateAt made change made path []
      some (es ++ [(key, .table made inner)])
    | some (.table o inner) =>
      if o = .inline ∨ (made = .dotted ∧ o = .header) then none
      else do
        let inner ← updateAt made change o path inner
        some (replace key (.table o inner) es)
    | some (.tables elements) => do
      let last ← elements.getLast?
      let last ← updateAt made change .header path last
      some (replace key (.tables (elements.dropLast ++ [last])) es)
    | some _ => none

/-- Adds a value under a dotted path; the table that gets it must be made by such a path too. -/
def assign (es : Entries) (path : List String) (v : Value) : Option Entries := do
  let key ← path.getLast?
  let parents := path.dropLast
  let add := fun (origin : Origin) (es : Entries) =>
    if (origin = .dotted ↔ parents ≠ []) ∧ (es.lookup key).isNone then some (es ++ [(key, v)])
    else none
  updateAt .dotted add .header parents es

def assignAll (es : Entries) : List (List String × Value) → Option Entries
  | [] => some es
  | (path, v) :: rest => do (← es.assign path v).assignAll rest

/-- Adds the table of a header with what is assigned below it. -/
def addTable (es : Entries) (path : List String) (body : List (List String × Value)) :
    Option Entries := do
  let key ← path.getLast?
  let add := fun (_ : Origin) (es : Entries) =>
    match es.lookup key with
    | none => do
      let inner ← assignAll [] body
      some (es ++ [(key, .table .header inner)])
    | some (.table .implied inner) => do
      let inner ← assignAll inner body
      some (replace key (.table .header inner) es)
    | some _ => none
  updateAt .implied add .header path.dropLast es

/-- Adds one more table to the array of a header. -/
def addElement (es : Entries) (path : List String) (body : List (List String × Value)) :
    Option Entries := do
  let key ← path.getLast?
  let element ← assignAll [] body
  let add := fun (_ : Origin) (es : Entries) =>
    match es.lookup key with
    | none => some (es ++ [(key, .tables [element])])
    | some (.tables elements) => some (replace key (.tables (elements ++ [element])) es)
    | some _ => none
  updateAt .implied add .header path.dropLast es

end Entries
end PhraseArithmetic.Toml
