/-!
# The text that a string literal spells

A literal spells characters directly, by escapes, and by sixteen-bit units that may come in
surrogate pairs. A unit out of its pair spells no text, but the literal around it is still whole.
-/
namespace PhraseArithmetic.Json

def isHighSurrogate (unit : Nat) : Bool := 0xD800 ≤ unit && unit < 0xDC00

def isLowSurrogate (unit : Nat) : Bool := 0xDC00 ≤ unit && unit < 0xE000

/-- What the part read so far spells; `reversed` has the last character first. -/
inductive Spelling where
  | text (reversed : List Char)
  | awaiting (reversed : List Char) (high : Nat)
  | nothing
  deriving DecidableEq, Repr

namespace Spelling

def empty : Spelling := text []

def char (s : Spelling) (c : Char) : Spelling :=
  match s with
  | text r => text (c :: r)
  | awaiting _ _ | nothing => nothing

def unit (s : Spelling) (n : Nat) : Spelling :=
  match s with
  | text r =>
    if isHighSurrogate n then awaiting r n
    else if isLowSurrogate n then nothing
    else text (Char.ofNat n :: r)
  | awaiting r high =>
    if isLowSurrogate n then
      text (Char.ofNat (0x10000 + (high - 0xD800) * 0x400 + (n - 0xDC00)) :: r)
    else nothing
  | nothing => nothing

def close : Spelling → Option String
  | text r => some (String.ofList r.reverse)
  | awaiting _ _ | nothing => none

end Spelling
end PhraseArithmetic.Json
