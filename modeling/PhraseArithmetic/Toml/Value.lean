import PhraseArithmetic.Toml.Key
import PhraseArithmetic.Toml.Moment
import PhraseArithmetic.Toml.Number
import PhraseArithmetic.Toml.Table

/-!
# Reading values

Arrays and inline tables nest up to the depth limit. An array may span lines and end in a comma; an
inline table may do neither.
-/
namespace PhraseArithmetic.Toml

/-- The text after a given beginning. -/
def afterPrefix? (beginning text : List Char) : Option (List Char) :=
  if beginning.isPrefixOf text then some (text.drop beginning.length) else none

def Number.toValue : Number → Value
  | integer n => .integer n
  | float => .float

/-- What begins like a number is a moment before it is a number. -/
def readScalar (text : List Char) : Option (Value × List Char) :=
  match text with
  | '"' :: _ | '\'' :: _ => (readString text).map fun (s, rest) => (.text s, rest)
  | 't' :: _ => (afterPrefix? "true".toList text).map (.boolean true, ·)
  | 'f' :: _ => (afterPrefix? "false".toList text).map (.boolean false, ·)
  | _ =>
    match afterMoment? text with
    | some rest => some (.moment, rest)
    | none => (readNumber text).map fun (n, rest) => (n.toValue, rest)

/-- Elements up to the closing bracket; `fuel` bounds their number. -/
def readElements (item : Reader Value) (fuel : Nat) (text : List Char) :
    Option (List Value × List Char) :=
  match fuel with
  | 0 => none
  | fuel + 1 =>
    match skipLayout text with
    | ']' :: rest => some ([], rest)
    | text => do
      let (v, rest) ← item text
      match skipLayout rest with
      | ',' :: rest => do
        let (vs, rest) ← readElements item fuel rest
        some (v :: vs, rest)
      | ']' :: rest => some ([v], rest)
      | _ => none

/-- Assignments up to the closing brace; `fuel` bounds their number. -/
def readAssignments (item : Reader Value) (fuel : Nat) (text : List Char) :
    Option (List (List String × Value) × List Char) :=
  match fuel with
  | 0 => none
  | fuel + 1 => do
    let (path, rest) ← readPath text
    let (v, rest) ← item (skipBlank (← after? '=' rest))
    match skipBlank rest with
    | ',' :: rest => do
      let (assignments, rest) ← readAssignments item fuel rest
      some ((path, v) :: assignments, rest)
    | '}' :: rest => some ([(path, v)], rest)
    | _ => none

def readInlineTable (item : Reader Value) (text : List Char) : Option (Value × List Char) :=
  match skipBlank text with
  | '}' :: rest => some (.table .inline [], rest)
  | text => do
    let (assignments, rest) ← readAssignments item text.length text
    let entries ← Entries.assignAll [] assignments
    some (.table .inline entries, rest)

/-- A value with at most `depth` containers around any part of it. -/
def readValue (depth : Nat) (text : List Char) : Option (Value × List Char) :=
  match depth, text with
  | _, [] => none
  | 0, '[' :: _ | 0, '{' :: _ => none
  | depth + 1, '[' :: rest =>
    (readElements (readValue depth) text.length rest).map fun (vs, rest) => (.array vs, rest)
  | depth + 1, '{' :: rest => readInlineTable (readValue depth) rest
  | _, text => readScalar text

end PhraseArithmetic.Toml
