/-!
# What a terminal prints

A terminal takes a text as printed characters and control sequences. Here the sequences and the
control characters are left out, tabs and line breaks apart, so that a text from outside can be
shown without steering the terminal.
-/
namespace PhraseArithmetic.Text.Terminal

/-- Where a terminal stands in a control sequence. -/
inductive Phase where
  | ground
  | escape
  /-- After an escape character and an intermediate one. -/
  | intermediate
  /-- In the parameters of a sequence that a letter ends. -/
  | parameters
  /-- In an operating system command, which a bell ends. -/
  | command
  /-- In the parameters of a device control string. -/
  | header
  /-- In a string that ends where the next sequence begins. -/
  | body
  deriving DecidableEq, Repr

def isSpacing (c : Char) : Bool := c = '\t' || c = '\n' || c = '\x0c' || c = '\r'

/-- Outside of ASCII every character is printed. -/
def isPrintable (c : Char) : Bool := (' ' ≤ c && c ≠ '\x7f') || isSpacing c

/-- The octet 9C ends a string, also as a part of a longer character. -/
def holdsTerminator (c : Char) : Bool := (String.singleton c).toUTF8.data.contains 0x9C

namespace Phase

def afterEscape (c : Char) : Phase :=
  if c = '[' then parameters
  else if c = ']' then command
  else if c = 'P' then header
  else if c = 'X' ∨ c = '^' ∨ c = '_' then body
  else if ' ' ≤ c ∧ c ≤ '/' then intermediate
  else if '0' ≤ c ∧ c ≤ '~' then ground
  else escape

/-- Two control characters cancel any sequence, and an escape character begins a new one. -/
def next (p : Phase) (c : Char) : Phase :=
  if c = '\x18' ∨ c = '\x1a' then ground
  else if c = '\x1b' then escape
  else match p with
    | ground => ground
    | escape => afterEscape c
    | intermediate => if '0' ≤ c ∧ c ≤ '~' then ground else intermediate
    | parameters => if '@' ≤ c ∧ c ≤ '~' then ground else parameters
    | command => if c = '\x07' then ground else command
    | header => if '@' ≤ c ∧ c ≤ '~' then body else header
    | body => if holdsTerminator c then ground else body

/-- Tabs and line breaks are printed inside a sequence too, but not inside a string. -/
def prints (p : Phase) (c : Char) : Bool :=
  match p with
  | ground => isPrintable c
  | escape | intermediate | parameters => isSpacing c
  | command | header | body => false

end Phase

/-- A sequence that is interrupted by a tab or a line break goes on after the run of printed
characters that begins there. -/
structure Screen where
  phase : Phase
  printing : Bool
  deriving DecidableEq, Repr

/-- The screen after a character, and whether the character is printed. -/
def Screen.step (s : Screen) (c : Char) : Screen × Bool :=
  if s.printing && isPrintable c then (⟨if '\x7f' < c then .ground else s.phase, true⟩, true)
  else (⟨s.phase.next c, s.phase.prints c⟩, s.phase.prints c)

def Screen.printed (s : Screen) : List Char → List Char
  | [] => []
  | c :: text =>
    let (next, isPrinted) := s.step c
    if isPrinted then c :: next.printed text else next.printed text

def printed (text : String) : String :=
  String.ofList (Screen.printed ⟨.ground, false⟩ text.toList)

end PhraseArithmetic.Text.Terminal
