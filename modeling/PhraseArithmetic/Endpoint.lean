/-!
# Endpoints
-/
namespace PhraseArithmetic

inductive Endpoint where
  | extractNumber
  | validateExpression
  | errorFrequencies
  | health
  deriving DecidableEq, Repr

namespace Endpoint

def all : List Endpoint := [extractNumber, validateExpression, errorFrequencies, health]

def path : Endpoint → String
  | extractNumber => "/extractNumber"
  | validateExpression => "/validateExpression"
  | errorFrequencies => "/errorFrequencies"
  | health => "/health"

def ofPath? (path : String) : Option Endpoint := all.find? (·.path == path)

@[simp] theorem ofPath?_path (e : Endpoint) : ofPath? e.path = some e := by cases e <;> decide

end Endpoint
end PhraseArithmetic
