/-!
# Log events

A message may hold text from outside. The characters in it that steer a terminal are written by
their codes.
-/
namespace PhraseArithmetic.Log

/-- From the most to the least important. -/
inductive Level where
  | error
  | warn
  | info
  | debug
  | trace
  deriving DecidableEq, Repr

namespace Level

def name : Level → String
  | error => "ERROR"
  | warn => "WARN"
  | info => "INFO"
  | debug => "DEBUG"
  | trace => "TRACE"

/-- Rises with the amount of detail. -/
def detail : Level → Nat
  | error => 1
  | warn => 2
  | info => 3
  | debug => 4
  | trace => 5

end Level

structure Event where
  level : Level
  message : String
  deriving DecidableEq, Repr

/-- Escape, bell, backspace, form feed and delete. -/
def controls : List Char := ['\x1b', '\x07', '\x08', '\x0c', '\x7f']

def hexadecimal (n : Nat) : List Char := Nat.toDigits 16 n

/-- Two hexadecimal digits for a control character of ASCII, braces around the code of another. -/
def escaped (c : Char) : List Char :=
  if controls.contains c then
    '\\' :: 'x' :: (if c.toNat < 16 then '0' :: hexadecimal c.toNat else hexadecimal c.toNat)
  else if '\x80' ≤ c ∧ c ≤ '\x9f' then '\\' :: 'u' :: '{' :: hexadecimal c.toNat ++ ['}']
  else [c]

namespace Event

def line (e : Event) (source : String) : String :=
  s!"{e.level.name} {source}: {String.ofList (e.message.toList.flatMap escaped)}"

end Event

end PhraseArithmetic.Log
