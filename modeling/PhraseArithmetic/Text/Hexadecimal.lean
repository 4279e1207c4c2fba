/-!
# Hexadecimal digits
-/
namespace PhraseArithmetic.Text

/-- The value of a digit in either case. -/
def hexValue? (c : Char) : Option Nat :=
  if '0' ≤ c ∧ c ≤ '9' then some (c.toNat - '0'.toNat)
  else if 'a' ≤ c ∧ c ≤ 'f' then some (c.toNat - 'a'.toNat + 10)
  else if 'A' ≤ c ∧ c ≤ 'F' then some (c.toNat - 'A'.toNat + 10)
  else none

theorem hexValue?_digitChar {n : Nat} (h : n < 16) : hexValue? n.digitChar = some n := by
  have : ∀ k : Fin 16, hexValue? (Nat.digitChar k) = some k.val := by decide
  exact this ⟨n, h⟩

end PhraseArithmetic.Text
