import PhraseArithmetic.Json.Spelling
import PhraseArithmetic.Text.Hexadecimal
import PhraseArithmetic.Text.Octets

/-!
# Lexemes of JSON text

A text is cut into lexemes from the left, one symbol at a time. Where no lexeme can go on, a last
one says so and the rest of the text is not read, so what precedes a defect is the same whatever
follows it.
-/
namespace PhraseArithmetic.Json

inductive Lexeme where
  | beginObject
  | endObject
  | beginArray
  | endArray
  | colon
  | comma
  | literal
  | number (text : List Char)
  | string (text : Option String)
  | malformed
  deriving DecidableEq, Repr

/-- How far a numeral has been read. -/
inductive NumberPhase where
  | minus
  | zero
  | whole
  | point
  | fraction
  | exponentMark
  | exponentSign
  | exponent
  deriving DecidableEq, Repr

/-- What the symbol after a part of a numeral does to it. -/
inductive Advance where
  | extend (phase : NumberPhase)
  | finish
  | refuse
  deriving DecidableEq, Repr

namespace NumberPhase

def isComplete : NumberPhase → Bool
  | zero | whole | fraction | exponent => true
  | minus | point | exponentMark | exponentSign => false

/-- The phase that a character leads to; none where it cannot be part of the numeral. -/
def next? (p : NumberPhase) (c : Char) : Option NumberPhase :=
  match p with
  | minus => if c = '0' then some zero else if c.isDigit then some whole else none
  | zero =>
    if c = '.' then some point else if c = 'e' ∨ c = 'E' then some exponentMark else none
  | whole =>
    if c.isDigit then some whole
    else if c = '.' then some point else if c = 'e' ∨ c = 'E' then some exponentMark else none
  | point => if c.isDigit then some fraction else none
  | fraction =>
    if c.isDigit then some fraction else if c = 'e' ∨ c = 'E' then some exponentMark else none
  | exponentMark =>
    if c.isDigit then some exponent else if c = '+' ∨ c = '-' then some exponentSign else none
  | exponentSign | exponent => if c.isDigit then some exponent else none

/-- A digit after a leading zero neither extends nor ends a numeral. -/
def advance (p : NumberPhase) (c : Char) : Advance :=
  match p.next? c with
  | some q => .extend q
  | none => if p.isComplete && !c.isDigit then .finish else .refuse

end NumberPhase

def isSpace (c : Char) : Bool := c = ' ' || c = '\t' || c = '\n' || c = '\r'

/-- The character that a one-letter escape stands for. -/
def escapeValue? : Char → Option Char
  | '"' => some '"'
  | '\\' => some '\\'
  | '/' => some '/'
  | 'b' => some '\x08'
  | 'f' => some '\x0c'
  | 'n' => some '\n'
  | 'r' => some '\r'
  | 't' => some '\t'
  | _ => none

namespace Lexer

inductive Mode where
  | between
  | literal (expected : List Char)
  | number (phase : NumberPhase) (reversed : List Char)
  | string (spelling : Spelling)
  | escape (spelling : Spelling)
  | unit (missing value : Nat) (spelling : Spelling)
  | lost
  deriving DecidableEq, Repr

/-- `emitted` has the last lexeme first. -/
structure State where
  mode : Mode
  emitted : List Lexeme
  deriving DecidableEq, Repr

namespace State

def start : State := ⟨.between, []⟩

def emit (s : State) (l : Lexeme) : State := ⟨.between, l :: s.emitted⟩

def lose (s : State) : State := ⟨.lost, .malformed :: s.emitted⟩

def goto (s : State) (m : Mode) : State := ⟨m, s.emitted⟩

/-- Reads the first character of a lexeme, or a space between two. -/
def begin (s : State) (c : Char) : State :=
  if isSpace c then s.goto .between
  else match c with
    | '{' => s.emit .beginObject
    | '}' => s.emit .endObject
    | '[' => s.emit .beginArray
    | ']' => s.emit .endArray
    | ':' => s.emit .colon
    | ',' => s.emit .comma
    | '"' => s.goto (.string .empty)
    | '-' => s.goto (.number .minus ['-'])
    | '0' => s.goto (.number .zero ['0'])
    | 'n' => s.goto (.literal ['u', 'l', 'l'])
    | 't' => s.goto (.literal ['r', 'u', 'e'])
    | 'f' => s.goto (.literal ['a', 'l', 's', 'e'])
    | c => if c.isDigit then s.goto (.number .whole [c]) else s.lose

def pushChar (s : State) (c : Char) : State :=
  match s.mode with
  | .between => s.begin c
  | .literal [] => s.lose
  | .literal [e] => if c = e then s.emit .literal else s.lose
  | .literal (e :: rest) => if c = e then s.goto (.literal rest) else s.lose
  | .number phase reversed =>
    match phase.advance c with
    | .extend next => s.goto (.number next (c :: reversed))
    | .finish => (s.emit (.number reversed.reverse)).begin c
    | .refuse => s.lose
  | .string spelling =>
    if c = '"' then s.emit (.string spelling.close)
    else if c = '\\' then s.goto (.escape spelling)
    else if c < ' ' then s.lose
    else s.goto (.string (spelling.char c))
  | .escape spelling =>
    if c = 'u' then s.goto (.unit 4 0 spelling)
    else match escapeValue? c with
      | some e => s.goto (.string (spelling.char e))
      | none => s.lose
  | .unit missing value spelling =>
    match Text.hexValue? c with
    | some d =>
      let value := value * 16 + d
      if missing ≤ 1 then s.goto (.string (spelling.unit value))
      else s.goto (.unit (missing - 1) value spelling)
    | none => s.lose
  | .lost => s

/-- An octet that begins no character may stand inside a string, which then spells nothing. -/
def pushStray (s : State) : State :=
  match s.mode with
  | .string _ => s.goto (.string .nothing)
  | .number phase reversed =>
    if phase.isComplete then (s.emit (.number reversed.reverse)).lose else s.lose
  | .lost => s
  | _ => s.lose

def push (s : State) : Text.Symbol → State
  | some c => s.pushChar c
  | none => s.pushStray

def finish (s : State) : List Lexeme :=
  match s.mode with
  | .between | .lost => s.emitted.reverse
  | .number phase reversed =>
    ((if phase.isComplete then .number reversed.reverse else .malformed) :: s.emitted).reverse
  | _ => (.malformed :: s.emitted).reverse

end State
end Lexer

def lexemes (text : List Text.Symbol) : List Lexeme :=
  (text.foldl Lexer.State.push .start).finish

end PhraseArithmetic.Json
