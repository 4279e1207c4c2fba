import PhraseArithmetic.Toml.Quotation

/-!
# Keys and dotted paths
-/
namespace PhraseArithmetic.Toml

/-- Paths and nested values must stay below this depth. -/
def depthLimit : Nat := 80

def isBareKeyChar (c : Char) : Bool := c.isAlphanum || c = '_' || c = '-'

def readBareKey (text : List Char) : Option (String × List Char) :=
  let name := text.takeWhile isBareKeyChar
  if name.isEmpty then none else some (String.ofList name, text.dropWhile isBareKeyChar)

def readKey (text : List Char) : Option (String × List Char) :=
  match text with
  | '"' :: _ | '\'' :: _ => readLineString text
  | _ => readBareKey text

/-- Keys joined by dots, each with blanks around it; `fuel` bounds their number. -/
def readKeys (fuel : Nat) (text : List Char) : Option (List String × List Char) :=
  match fuel with
  | 0 => none
  | fuel + 1 => do
    let (key, rest) ← readKey (skipBlank text)
    match skipBlank rest with
    | '.' :: rest => do
      let (keys, rest) ← readKeys fuel rest
      some (key :: keys, rest)
    | rest => some ([key], rest)

/-- A path of fewer keys than the depth limit. -/
def readPath (text : List Char) : Option (List String × List Char) := readKeys (depthLimit - 1) text

end PhraseArithmetic.Toml
