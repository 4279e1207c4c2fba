import PhraseArithmetic.Fault

/-!
# The four operators

Each operator has one word, matched exactly. Arithmetic is on 64-bit signed words: sums,
differences and products wrap, and quotients are truncated toward zero.
-/
namespace PhraseArithmetic

inductive Operator where
  | plus
  | minus
  | multiplied
  | divided
  deriving DecidableEq, Repr

namespace Operator

/-- In vocabulary order. -/
def all : List Operator := [plus, minus, multiplied, divided]

def word : Operator → String
  | plus => "plus"
  | minus => "minus"
  | multiplied => "multiplied"
  | divided => "divided"

def ofWord? (word : String) : Option Operator := all.find? (·.word == word)

@[simp] theorem ofWord?_word (o : Operator) : ofWord? o.word = some o := by cases o <;> decide

theorem ofWord?_eq_some_iff {w : String} {o : Operator} : ofWord? w = some o ↔ w = o.word := by
  constructor
  · intro h
    have hw : (o.word == w) = true := List.find?_some (p := fun x : Operator => x.word == w) h
    exact (beq_iff_eq.1 hw).symm
  · rintro rfl
    exact ofWord?_word o

/-- The result of an operation that is defined. -/
def combine (o : Operator) (lhs rhs : Int64) : Int64 :=
  match o with
  | plus => lhs + rhs
  | minus => lhs - rhs
  | multiplied => lhs * rhs
  | divided => lhs / rhs

/-- Division by zero is the only operation that is not defined. -/
def apply (o : Operator) (lhs rhs : Int64) : Except Fault Int64 :=
  if o = divided ∧ rhs = 0 then .error .divisionByZero else .ok (o.combine lhs rhs)

end Operator
end PhraseArithmetic
