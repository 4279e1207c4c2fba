/-!
# Blanks, comments and line ends of TOML text

A reader takes the text before it and gives what it read with the text after it, or nothing.
-/
namespace PhraseArithmetic.Toml

abbrev Reader (α : Type) := List Char → Option (α × List Char)

def isBlank (c : Char) : Bool := c = ' ' || c = '\t'

def skipBlank (text : List Char) : List Char := text.dropWhile isBlank

/-- The characters of comments and strings: tabs, and all that are not control characters. -/
def isPlain (c : Char) : Bool := c = '\t' || (' ' ≤ c && c ≠ '\x7f')

/-- The text after one line break, which may have a carriage return. -/
def afterNewline? : List Char → Option (List Char)
  | '\n' :: rest => some rest
  | '\r' :: '\n' :: rest => some rest
  | _ => none

def skipComment : List Char → List Char
  | '#' :: rest => rest.dropWhile isPlain
  | text => text

/-- The next line, when only blanks and a comment are left of this one. -/
def nextLine? (text : List Char) : Option (List Char) :=
  match skipComment (skipBlank text) with
  | [] => some []
  | rest => afterNewline? rest

/-- Skips blanks, line breaks and comments; a comment goes on to the end of its line. -/
def skipLayoutFrom (inComment : Bool) : List Char → List Char
  | [] => []
  | '\r' :: '\n' :: rest => skipLayoutFrom false rest
  | c :: rest =>
    if c = '\n' then skipLayoutFrom false rest
    else if inComment then if isPlain c then skipLayoutFrom true rest else c :: rest
    else if isBlank c then skipLayoutFrom false rest
    else if c = '#' then skipLayoutFrom true rest
    else c :: rest

def skipLayout (text : List Char) : List Char := skipLayoutFrom false text

end PhraseArithmetic.Toml
