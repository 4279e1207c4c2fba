/-!
# What can be wrong with a phrase

Six kinds of fault. A kind's text is its name everywhere: in answers, in the log and as the key
under which it is counted.
-/
namespace PhraseArithmetic

inductive Fault where
  | divisionByZero
  | unsupportedOperator
  | invalidSyntax
  | unsupportedOperations
  | noNumberFound
  | nonMathQuestion
  deriving DecidableEq, Repr

namespace Fault

def all : List Fault :=
  [divisionByZero, unsupportedOperator, invalidSyntax, unsupportedOperations, noNumberFound,
   nonMathQuestion]

def kind : Fault → String
  | divisionByZero => "division by zero"
  | unsupportedOperator => "unsupported operator"
  | invalidSyntax => "expressions with invalid syntax"
  | unsupportedOperations => "unsupported operations"
  | noNumberFound => "no number found in the expression"
  | nonMathQuestion => "non-math question"

def ofKind? (kind : String) : Option Fault := all.find? (·.kind == kind)

end Fault
end PhraseArithmetic
