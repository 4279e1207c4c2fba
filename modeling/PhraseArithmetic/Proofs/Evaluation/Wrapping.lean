import Mathlib.Algebra.Order.Group.Unbundled.Int
import Mathlib.Data.Int.ModEq
import Mathlib.Data.List.Infix
import PhraseArithmetic.Proofs.Evaluation.Accepted

/-!
# Chains in words and in whole numbers

Sums, differences and products may be brought back into 64 bits at any time, so without divisions
the value of a chain is its exact value up to a multiple of 2^64. With divisions it is the exact
value as long as every exact value on the way fits into a word. A quotient is truncated toward zero
and fits, but for the smallest number divided by minus one.
-/
namespace PhraseArithmetic

/-- A whole number in the range of 64-bit signed words. -/
def Fits (n : ℤ) : Prop := Int64.minValue.toInt ≤ n ∧ n ≤ Int64.maxValue.toInt

instance (n : ℤ) : Decidable (Fits n) := inferInstanceAs (Decidable (_ ∧ _))

namespace Operator

end Operator

namespace Chain

variable {chain : Chain} {links : List Link} {value next : Int64} {l : Link}

/-- In the course of the chain the operation is applied to `value` and gives `next`. -/
def Passes (chain : Chain) (value : Int64) (l : Link) (next : Int64) : Prop :=
  ∃ earlier later, chain.links = earlier ++ l :: later ∧ foldFrom chain.first earlier = value ∧
    foldFrom chain.first (earlier ++ [l]) = next

end Chain
end PhraseArithmetic
