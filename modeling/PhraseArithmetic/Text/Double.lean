/-!
# The range of double precision
-/
namespace PhraseArithmetic.Text

/-- The least whole number that rounds up to infinity: the largest double and half a step. -/
def infinityBound : Nat := Nat.pow 2 1024 - Nat.pow 2 970

end PhraseArithmetic.Text
