import PhraseArithmetic.Json.Lexeme

/-!
# Values that are passed over

A value of an unknown member is read to its end and forgotten. It may be nested to any depth, so
the containers still open are kept in a list, innermost first.
-/
namespace PhraseArithmetic.Wire
open Json (Lexeme)

inductive Container where
  | array
  | object
  deriving DecidableEq, Repr

inductive Expectation where
  | value
  | elementOrEnd
  | keyOrEnd
  | key
  | colon
  | commaOrEnd
  deriving DecidableEq, Repr

structure Ignored where
  opened : List Container
  expected : Expectation
  deriving DecidableEq, Repr

namespace Ignored

def start : Ignored := ⟨[], .value⟩

def isFinished (i : Ignored) : Bool := i.opened.isEmpty && i.expected = .commaOrEnd

def valueStep (opened : List Container) : Lexeme → Option Ignored
  | .literal | .number _ | .string _ => some ⟨opened, .commaOrEnd⟩
  | .beginArray => some ⟨.array :: opened, .elementOrEnd⟩
  | .beginObject => some ⟨.object :: opened, .keyOrEnd⟩
  | _ => none

/-- None where the lexeme does not fit. -/
def step (i : Ignored) (l : Lexeme) : Option Ignored :=
  match i.expected, i.opened, l with
  | .value, opened, l => valueStep opened l
  | .elementOrEnd, .array :: outer, .endArray => some ⟨outer, .commaOrEnd⟩
  | .elementOrEnd, opened, l => valueStep opened l
  | .keyOrEnd, .object :: outer, .endObject => some ⟨outer, .commaOrEnd⟩
  | .keyOrEnd, opened, .string _ | .key, opened, .string _ => some ⟨opened, .colon⟩
  | .colon, opened, .colon => some ⟨opened, .value⟩
  | .commaOrEnd, .array :: outer, .comma => some ⟨.array :: outer, .value⟩
  | .commaOrEnd, .array :: outer, .endArray => some ⟨outer, .commaOrEnd⟩
  | .commaOrEnd, .object :: outer, .comma => some ⟨.object :: outer, .key⟩
  | .commaOrEnd, .object :: outer, .endObject => some ⟨outer, .commaOrEnd⟩
  | _, _, _ => none

end Ignored
end PhraseArithmetic.Wire
