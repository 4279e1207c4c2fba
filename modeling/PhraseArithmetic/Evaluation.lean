import PhraseArithmetic.Token

/-!
# Evaluating a phrase

Words before the first number are passed over. From there on operators and operands alternate and
are applied strictly from the left; one unrecognized word may stand at the very end. Each step
looks at a pair, an operator word and the word after it, and a pair with several faults is refused
for its operand first, then for its operator, then for its divisor.
-/
namespace PhraseArithmetic.Token

/-- Continues from a running value over the pairs that follow an operand. -/
def evaluateFrom (value : Int64) : List Token → Except Fault Int64
  | [] => .ok value
  | [unrecognized _] => .ok value
  | operator o :: number n :: rest =>
    match o.apply value n with
    | .ok next => evaluateFrom next rest
    | .error fault => .error fault
  | _ :: number _ :: _ => .error .unsupportedOperator
  | _ => .error .invalidSyntax

def evaluate : List Token → Except Fault Int64
  | [] => .error .noNumberFound
  | number n :: rest => evaluateFrom n rest
  | _ :: rest => evaluate rest

theorem evaluate_append {before : List Token} (h : ∀ t ∈ before, t.isNumber = false)
    (rest : List Token) : evaluate (before ++ rest) = evaluate rest := by
  induction before with
  | nil => rfl
  | cons t before ih =>
    have ht := h t (by simp)
    cases t with
    | number n => exact absurd ht (by simp [isNumber])
    | operator o => exact ih fun u hu => h u (by simp [hu])
    | unrecognized w => exact ih fun u hu => h u (by simp [hu])

end PhraseArithmetic.Token
