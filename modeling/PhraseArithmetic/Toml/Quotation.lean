import PhraseArithmetic.Text.Hexadecimal
import PhraseArithmetic.Toml.Layout

/-!
# Quoted strings

Strings are quoted by one mark or by three, and a string in triple marks may span lines. Double
marks allow escapes, single marks do not. One or two marks may stand inside a triple-marked
string, also right before its end.
-/
namespace PhraseArithmetic.Toml

/-- How a string is quoted. -/
structure Quotation where
  mark : Char
  escapes : Bool
  multiline : Bool
  deriving DecidableEq, Repr

/-- The character that a one-letter escape stands for. -/
def escapeValue? : Char → Option Char
  | 'b' => some '\x08'
  | 't' => some '\t'
  | 'n' => some '\n'
  | 'f' => some '\x0c'
  | 'r' => some '\r'
  | '"' => some '"'
  | '\\' => some '\\'
  | _ => none

def scalar? (n : Nat) : Option Char := if n.isValidChar then some (Char.ofNat n) else none

/-- Where reading stands inside a string. -/
inductive QuotationPhase where
  /-- After a run of marks that may yet be the closing ones. -/
  | content (marks : Nat)
  | escape
  | scalar (missing value : Nat)
  /-- After a carriage return, where a line feed must follow. -/
  | carriage (folding : Bool)
  /-- After a backslash and blanks, where a line break must follow. -/
  | fold
  /-- Between a line break after a backslash and the next content. -/
  | folded
  deriving DecidableEq, Repr

namespace Quotation

def basic : Quotation := ⟨'"', true, false⟩
def literal : Quotation := ⟨'\'', false, false⟩
def basicLines : Quotation := ⟨'"', true, true⟩
def literalLines : Quotation := ⟨'\'', false, true⟩

variable (q : Quotation)

/-- The number of marks that close a string. -/
def width : Nat := if q.multiline then 3 else 1

/-- The longest run of marks that can be read at the end of a string. -/
def longestRun : Nat := if q.multiline then 5 else 1

def closes (marks : Nat) (c : Char) : Bool :=
  q.width ≤ marks && (c ≠ q.mark || marks = q.longestRun)

/-- The string read, when a run of marks closes it; `reversed` has its last character first. -/
def close (marks : Nat) (reversed : List Char) : String :=
  String.ofList (List.replicate (marks - q.width) q.mark ++ reversed).reverse

/-- The phase after a content character, and what has been read with it. -/
def contentStep (marks : Nat) (reversed : List Char) (c : Char) :
    Option (QuotationPhase × List Char) :=
  if c = q.mark then some (.content (marks + 1), reversed)
  else
    let reversed := List.replicate marks q.mark ++ reversed
    if q.escapes && c = '\\' then some (.escape, reversed)
    else if q.multiline && c = '\n' then some (.content 0, '\n' :: reversed)
    else if q.multiline && c = '\r' then some (.carriage false, reversed)
    else if isPlain c then some (.content 0, c :: reversed)
    else none

def escapeStep (reversed : List Char) (c : Char) : Option (QuotationPhase × List Char) :=
  if c = 'u' then some (.scalar 4 0, reversed)
  else if c = 'U' then some (.scalar 8 0, reversed)
  else match escapeValue? c with
    | some e => some (.content 0, e :: reversed)
    | none =>
      if q.multiline && isBlank c then some (.fold, reversed)
      else if q.multiline && c = '\n' then some (.folded, reversed)
      else if q.multiline && c = '\r' then some (.carriage true, reversed)
      else none

def scalarStep (missing value : Nat) (reversed : List Char) (c : Char) :
    Option (QuotationPhase × List Char) := do
  let digit ← Text.hexValue? c
  let value := value * 16 + digit
  if missing ≤ 1 then
    let scalar ← scalar? value
    some (.content 0, scalar :: reversed)
  else some (.scalar (missing - 1) value, reversed)

def step (phase : QuotationPhase) (reversed : List Char) (c : Char) :
    Option (QuotationPhase × List Char) :=
  match phase with
  | .content marks => q.contentStep marks reversed c
  | .escape => q.escapeStep reversed c
  | .scalar missing value => scalarStep missing value reversed c
  | .carriage folding =>
    if c = '\n' then some (if folding then (.folded, reversed) else (.content 0, '\n' :: reversed))
    else none
  | .fold =>
    if isBlank c then some (.fold, reversed)
    else if c = '\n' then some (.folded, reversed)
    else if c = '\r' then some (.carriage true, reversed)
    else none
  | .folded =>
    if isBlank c || c = '\n' then some (.folded, reversed)
    else if c = '\r' then some (.carriage true, reversed)
    else q.contentStep 0 reversed c

/-- The string that closes right before `c`, if one does. -/
def closedBefore? (phase : QuotationPhase) (reversed : List Char) (c : Char) : Option String :=
  match phase with
  | .content marks => if q.closes marks c then some (q.close marks reversed) else none
  | _ => none

def closedAtEnd? (phase : QuotationPhase) (reversed : List Char) : Option String :=
  match phase with
  | .content marks => if q.width ≤ marks then some (q.close marks reversed) else none
  | _ => none

/-- Reads a string from inside to its end. -/
def read (phase : QuotationPhase) (reversed : List Char) : Reader String
  | [] => (q.closedAtEnd? phase reversed).map fun s => (s, [])
  | c :: rest =>
    match q.closedBefore? phase reversed c with
    | some s => some (s, c :: rest)
    | none =>
      match q.step phase reversed c with
      | some (next, reversed) => read next reversed rest
      | none => none

end Quotation

/-- The first line break of a string in triple marks is no part of it. -/
def dropNewline (text : List Char) : List Char := (afterNewline? text).getD text

/-- A string in single marks of either kind, as keys may be. -/
def readLineString : Reader String
  | '"' :: rest => Quotation.basic.read (.content 0) [] rest
  | '\'' :: rest => Quotation.literal.read (.content 0) [] rest
  | _ => none

def readString : Reader String
  | '"' :: '"' :: '"' :: rest => Quotation.basicLines.read (.content 0) [] (dropNewline rest)
  | '\'' :: '\'' :: '\'' :: rest => Quotation.literalLines.read (.content 0) [] (dropNewline rest)
  | text => readLineString text

end PhraseArithmetic.Toml
