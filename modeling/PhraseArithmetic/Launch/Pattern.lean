import PhraseArithmetic.Text.Alphanumeric
import PhraseArithmetic.Text.Blank
import PhraseArithmetic.Text.Hexadecimal

/-!
# Patterns for field values

A field value may be given as a regular expression. Here it is only decided whether the expression
can be used: whether it is well formed, and whether it is free of word boundaries that depend on
the whole character set. Classes and letter case are known for ASCII alone, so what needs more of
the character set is not well formed either.
-/
namespace PhraseArithmetic.Launch

inductive PatternFault where
  | malformed
  | wideBoundary
  deriving DecidableEq, Repr

namespace Pattern

/-- What is in force at a place of a pattern. -/
structure Modes where
  /-- Letters stand for both of their cases. -/
  folded : Bool
  /-- The whole character set is meant, not ASCII alone. -/
  wide : Bool
  /-- Blanks and comments are left out. -/
  spaced : Bool
  deriving DecidableEq, Repr

namespace Modes

def start : Modes := ⟨false, true, false⟩

def set (m : Modes) (value : Bool) : Char → Modes
  | 'i' => { m with folded := value }
  | 'u' => { m with wide := value }
  | 'x' => { m with spaced := value }
  | _ => m

/-- The letters of modes; four of them do not matter for well-formedness. -/
def letters : List Char := ['i', 'm', 's', 'U', 'u', 'R', 'x']

/-- Letters before a hyphen switch modes on, those after it off; none comes twice. -/
def change? (m : Modes) (flags : List Char) : Option Modes :=
  if flags.Nodup ∧ flags.all (fun c => c = '-' || letters.contains c) ∧ flags.getLast? ≠ some '-'
  then
    let on := flags.takeWhile (· ≠ '-')
    let off := flags.dropWhile (· ≠ '-')
    some (off.foldl (·.set false) (on.foldl (·.set true) m))
  else none

/-- Drops blanks and comments; a comment goes on to the end of its line. -/
def dropSpacing (inComment : Bool) : List Char → List Char
  | [] => []
  | c :: rest =>
    if inComment then dropSpacing (c ≠ '\n') rest
    else if Text.isBlank c then dropSpacing false rest
    else if c = '#' then dropSpacing true rest
    else c :: rest

def skip (m : Modes) (text : List Char) : List Char :=
  if m.spaced then dropSpacing false text else text

/-- The next character that counts; of a comment it is the first one. -/
def peek? (m : Modes) (text : List Char) : Option Char :=
  let beyond := text.dropWhile Text.isBlank
  let next := match beyond with
    | '#' :: rest => rest.dropWhile Text.isBlank
    | _ => beyond
  if m.spaced && !next.isEmpty then next.head? else text.head?

/-- Two cases of one letter are not known outside of ASCII, and an octet alone is no character. -/
def admitsLiteral (m : Modes) (isOctet : Bool) (scalar : Nat) : Bool :=
  if m.wide then !m.folded else !(isOctet && 0x80 ≤ scalar)

def admitsMember (m : Modes) (scalar : Nat) : Bool :=
  if m.wide then !m.folded else scalar < 0x80

end Modes

/-- What a pattern has at one place. -/
inductive Item where
  | literal (scalar : Nat) (isOctet : Bool)
  /-- Digits, word characters or blanks, or all but them. -/
  | named (negated : Bool)
  | position (isBoundary : Bool)
  deriving DecidableEq, Repr

/-- Reads a number of hexadecimal digits. -/
def readHexadecimal (m : Modes) (digits value : Nat) (text : List Char) :
    Option (Nat × List Char) :=
  match digits with
  | 0 => some (value, text)
  | digits + 1 =>
    match m.skip text with
    | c :: rest => do readHexadecimal m digits (16 * value + (← Text.hexValue? c)) rest
    | [] => none

def readScalar (m : Modes) (digits : Nat) (text : List Char) : Option (Item × List Char) := do
  let (scalar, rest) ← readHexadecimal m digits 0 text
  if scalar.isValidChar then some (.literal scalar (digits = 2), rest) else none

/-- Reads what follows a backslash. -/
def readEscape (m : Modes) : List Char → Option (Item × List Char)
  | [] => none
  | 'x' :: rest => readScalar m 2 rest
  | 'u' :: rest => readScalar m 4 rest
  | 'U' :: rest => readScalar m 8 rest
  | 'b' :: '{' :: _ => none
  | c :: rest =>
    if "dsw".toList.contains c then some (.named false, rest)
    else if "DSW".toList.contains c then some (.named true, rest)
    else if "bB<>".toList.contains c then some (.position true, rest)
    else if "Az".toList.contains c then some (.position false, rest)
    else if "aftnrv".toList.contains c then some (.literal c.toNat false, rest)
    else if c ≤ '\x7f' ∧ !c.isAlphanum then some (.literal c.toNat false, rest)
    else none

def readItem (m : Modes) : List Char → Option (Item × List Char)
  | [] => none
  | '\\' :: rest => readEscape m rest
  | c :: rest => some (.literal c.toNat false, rest)

/-! ## Bracketed classes -/

def classNames : List String :=
  ["alnum", "alpha", "ascii", "blank", "cntrl", "digit", "graph", "lower", "print", "punct",
   "space", "upper", "word", "xdigit"]

/-- Reads a class by name, from after its bracket and colon; whether it is negated comes first. -/
def readNamedClass? (text : List Char) : Option (Bool × List Char) :=
  let (negated, text) := match text with
    | '^' :: rest => (true, rest)
    | _ => (false, text)
  match text.dropWhile (· ≠ ':') with
  | ':' :: ']' :: rest =>
    if classNames.contains (String.ofList (text.takeWhile (· ≠ ':'))) then some (negated, rest)
    else none
  | _ => none

def admitsClass (m : Modes) (negated : Bool) : Bool := if m.wide then !m.folded else !negated

/-- Whether an item may be a member of a class. -/
def isMember (m : Modes) : Item → Bool
  | .literal scalar _ => m.admitsMember scalar
  | .named negated => !m.wide && !negated
  | .position _ => false

/-- Whether two items are the ends of a range. -/
def isRange (m : Modes) : Item → Item → Bool
  | .literal first _, .literal last _ =>
    first ≤ last && m.admitsMember first && m.admitsMember last
  | _, _ => false

/-- Drops the hyphens that stand for themselves at the beginning of a class. -/
def dropHyphens (m : Modes) : List Char → List Char
  | '-' :: rest => m.skip (dropHyphens m rest)
  | text => text

/-- The members of a class from after its bracket on, where its first members have been read. -/
def openClass? (m : Modes) (text : List Char) : Option (List Char) :=
  let text := m.skip text
  let isNegated := text.head? = some '^'
  let text := if isNegated then m.skip text.tail else text
  let beyond := dropHyphens m text
  let opened := match beyond with
    | ']' :: rest => if text.head? = some '-' then beyond else m.skip rest
    | _ => beyond
  let hasMember := opened.length < text.length
  if (isNegated && !m.wide) || (hasMember && !m.admitsMember '-'.toNat) then none
  else some opened

/-- Reads a member or a range of members. -/
def readMember (m : Modes) (text : List Char) : Option (List Char) := do
  let (first, rest) ← readItem m text
  let single := if isMember m first then some (m.skip rest) else none
  match m.skip rest with
  | '-' :: after =>
    match m.peek? after with
    | some ']' | some '-' => single
    | _ => do
      let (last, rest) ← readItem m (m.skip after)
      if isRange m first last then some rest else none
  | _ => single

/-- The text after a class with the given number of open brackets; `fuel` bounds the steps. -/
def readClass (m : Modes) (fuel depth : Nat) (text : List Char) : Option (List Char) :=
  match fuel, depth with
  | 0, _ => none
  | _, 0 => some text
  | fuel + 1, depth + 1 =>
    match m.skip text with
    | [] => none
    | ']' :: rest => readClass m fuel depth rest
    | '&' :: '&' :: rest | '-' :: '-' :: rest | '~' :: '~' :: rest =>
      readClass m fuel (depth + 1) rest
    | '[' :: rest =>
      let named := match rest with
        | ':' :: after => readNamedClass? after
        | _ => none
      match named with
      | some (negated, rest) =>
        if admitsClass m negated then readClass m fuel (depth + 1) rest else none
      | none => do readClass m fuel (depth + 2) (← openClass? m rest)
    | text => do readClass m fuel (depth + 1) (← readMember m text)

/-! ## Groups and repetitions -/

structure Reading where
  modes : Modes
  /-- The modes outside of each open group, the innermost first. -/
  outer : List Modes
  /-- The names of the groups so far. -/
  names : List (List Char)
  /-- Whether a repetition may follow. -/
  isRepeatable : Bool
  hasWideBoundary : Bool
  deriving DecidableEq, Repr

namespace Reading

def start : Reading := ⟨.start, [], [], false, false⟩

/-- The reading inside of a group with modes of its own. -/
def inside (s : Reading) (m : Modes) : Reading :=
  { s with modes := m, outer := s.modes :: s.outer, isRepeatable := false }

def isNameStart (c : Char) : Bool := c = '_' || Text.isLetter c

def isNamePart (c : Char) : Bool :=
  c = '_' || c = '.' || c = '[' || c = ']' || Text.isAlphanumeric c

/-- Opens a group with a name that no other has. -/
def openNamed? (s : Reading) (text : List Char) : Option (Reading × List Char) :=
  let name := text.takeWhile (· ≠ '>')
  match text.dropWhile (· ≠ '>') with
  | _ :: rest =>
    if name.head?.any isNameStart && name.all isNamePart && !s.names.contains name then
      some ({ s.inside s.modes with names := name :: s.names }, rest)
    else none
  | [] => none

/-- Changes modes up to the end of the innermost group, or for a group that begins here. -/
def changeModes? (s : Reading) (text : List Char) : Option (Reading × List Char) :=
  let isFlag := fun c => c ≠ ':' && c ≠ ')'
  let flags := text.takeWhile isFlag
  match text.dropWhile isFlag with
  | ':' :: rest => do some (s.inside (← s.modes.change? flags), rest)
  | ')' :: rest => do
    if flags.isEmpty then none
    else some ({ s with modes := ← s.modes.change? flags, isRepeatable := false }, rest)
  | _ => none

/-- Reads on from after an opening parenthesis; there is no looking ahead or behind. -/
def openGroup? (s : Reading) (text : List Char) : Option (Reading × List Char) :=
  match s.modes.skip text with
  | '?' :: '=' :: _ | '?' :: '!' :: _ | '?' :: '<' :: '=' :: _ | '?' :: '<' :: '!' :: _ => none
  | '?' :: 'P' :: '<' :: rest | '?' :: '<' :: rest => s.openNamed? rest
  | '?' :: rest => s.changeModes? rest
  | rest => some (s.inside s.modes, rest)

def closeGroup? (s : Reading) : Option Reading :=
  match s.outer with
  | [] => none
  | m :: outer => some { s with modes := m, outer := outer, isRepeatable := true }

def accept? (s : Reading) : Item → Option Reading
  | .literal scalar isOctet =>
    if s.modes.admitsLiteral isOctet scalar then some { s with isRepeatable := true } else none
  | .named negated =>
    if s.modes.wide || negated then none else some { s with isRepeatable := true }
  | .position isBoundary =>
    some { s with
      isRepeatable := true
      hasWideBoundary := s.hasWideBoundary || (isBoundary && s.modes.wide) }

/-- Reads one part of a pattern; `none` where it is not well formed. -/
def step? (s : Reading) : List Char → Option (Reading × List Char)
  | '(' :: rest => s.openGroup? rest
  | ')' :: rest => do some (← s.closeGroup?, rest)
  | '|' :: rest => some ({ s with isRepeatable := false }, rest)
  | '*' :: rest | '+' :: rest | '?' :: rest => if s.isRepeatable then some (s, rest) else none
  | '{' :: _ => none
  | '[' :: rest => do
    let opened ← openClass? s.modes rest
    some ({ s with isRepeatable := true }, ← readClass s.modes (rest.length + 2) 1 opened)
  | '.' :: rest => if s.modes.wide then some ({ s with isRepeatable := true }, rest) else none
  | '^' :: rest | '$' :: rest => do some (← s.accept? (.position false), rest)
  | text => do
    let (item, rest) ← readItem s.modes text
    some (← s.accept? item, rest)

/-- Reads a pattern to its end; `fuel` bounds the number of its parts. -/
def read? (fuel : Nat) (s : Reading) (text : List Char) : Option Reading :=
  match fuel with
  | 0 => none
  | fuel + 1 =>
    match s.modes.skip text with
    | [] => if s.outer.isEmpty then some s else none
    | text => do
      let (s, rest) ← s.step? text
      read? fuel s rest

end Reading

/-- The reason why a pattern cannot be used, if there is one. -/
def fault? (text : List Char) : Option PatternFault :=
  match Reading.start.read? (text.length + 1) text with
  | none => some .malformed
  | some s => if s.hasWideBoundary then some .wideBoundary else none

end Pattern
end PhraseArithmetic.Launch
