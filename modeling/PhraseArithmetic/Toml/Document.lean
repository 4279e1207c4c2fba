import PhraseArithmetic.Toml.Value

/-!
# Documents

A document is a list of statements, one to a line: headers, and assignments that belong to the
header above them.
-/
namespace PhraseArithmetic.Toml

inductive Statement where
  | table (path : List String)
  | element (path : List String)
  | assign (path : List String) (value : Value)
  deriving Repr

/-- A statement and the text from its end on. -/
def readStatement (text : List Char) : Option (Statement × List Char) :=
  match text with
  | '[' :: '[' :: rest => do
    let (path, rest) ← readPath rest
    some (.element path, ← after? ']' (← after? ']' rest))
  | '[' :: rest => do
    let (path, rest) ← readPath rest
    some (.table path, ← after? ']' rest)
  | text => do
    let (path, rest) ← readPath text
    let (v, rest) ← readValue (depthLimit - 1) (skipBlank (← after? '=' rest))
    some (.assign path v, rest)

/-- The statements of a text; `fuel` bounds the number of its lines. -/
def readStatements (fuel : Nat) (text : List Char) : Option (List Statement) :=
  match fuel with
  | 0 => none
  | fuel + 1 =>
    match skipBlank text with
    | [] => some []
    | c :: rest =>
      if c = '#' ∨ c = '\n' ∨ c = '\r' then do
        readStatements fuel (← nextLine? (c :: rest))
      else do
        let (statement, rest) ← readStatement (c :: rest)
        let statements ← readStatements fuel (← nextLine? rest)
        some (statement :: statements)

/-- The statements of a whole text, which may begin with a byte order mark. -/
def statements? (text : List Char) : Option (List Statement) :=
  let text := match text with
    | '\uFEFF' :: rest => rest
    | text => text
  readStatements (text.length + 1) text

/-- A header and the assignments below it. -/
structure Section where
  isElement : Bool
  path : List String
  body : List (List String × Value)

structure Outline where
  top : List (List String × Value)
  sections : List Section

def Outline.push (s : Statement) (o : Outline) : Outline :=
  match s with
  | .table path => ⟨[], ⟨false, path, o.top⟩ :: o.sections⟩
  | .element path => ⟨[], ⟨true, path, o.top⟩ :: o.sections⟩
  | .assign path v => ⟨(path, v) :: o.top, o.sections⟩

/-- Groups assignments under their headers. -/
def outline (statements : List Statement) : Outline := statements.foldr Outline.push ⟨[], []⟩

def Entries.addSection (es : Entries) (s : Section) : Option Entries :=
  if s.isElement then es.addElement s.path s.body else es.addTable s.path s.body

def Outline.entries? (o : Outline) : Option Entries := do
  o.sections.foldlM Entries.addSection (← Entries.assignAll [] o.top)

/-- The root table of a document. -/
def document? (text : List Char) : Option Entries := do
  (outline (← statements? text)).entries?

end PhraseArithmetic.Toml
