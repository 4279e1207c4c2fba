import PhraseArithmetic.Evaluation

/-!
# Chains of operations

A chain is a number and the operations on it in order. Its value is the left fold of its
operations in 64-bit words; its exact value is the same fold in whole numbers.
-/
namespace PhraseArithmetic

abbrev Link := Operator × Int64

/-- An operation is defined unless it divides by zero. -/
def Link.IsDefined (l : Link) : Prop := ¬(l.1 = .divided ∧ l.2 = 0)

instance (l : Link) : Decidable l.IsDefined := inferInstanceAs (Decidable ¬_)

def Link.tokens (l : Link) : List Token := [.operator l.1, .number l.2]

/-- The exact result of an operation; quotients are truncated toward zero. -/
def Operator.exact (o : Operator) (lhs rhs : Int) : Int :=
  match o with
  | plus => lhs + rhs
  | minus => lhs - rhs
  | multiplied => lhs * rhs
  | divided => lhs.tdiv rhs

structure Chain where
  first : Int64
  links : List Link
  deriving DecidableEq, Repr

namespace Chain

def tokens (c : Chain) : List Token := .number c.first :: c.links.flatMap Link.tokens

def foldFrom (value : Int64) (links : List Link) : Int64 :=
  links.foldl (fun value l => l.1.combine value l.2) value

def value (c : Chain) : Int64 := foldFrom c.first c.links

end Chain

/-- Links that are all defined are evaluated to their fold, whatever comes after them. -/
theorem Token.evaluateFrom_links {links : List Link} (h : ∀ l ∈ links, l.IsDefined) (value : Int64)
    (rest : List Token) :
    evaluateFrom value (links.flatMap Link.tokens ++ rest) =
      evaluateFrom (Chain.foldFrom value links) rest := by
  induction links generalizing value with
  | nil => rfl
  | cons l links ih =>
    have hl : ¬(l.1 = .divided ∧ l.2 = 0) := h l (by simp)
    simp only [List.flatMap_cons, Link.tokens, List.cons_append, List.nil_append, evaluateFrom,
      Operator.apply, if_neg hl]
    exact ih (fun m hm => h m (by simp [hm])) _

end PhraseArithmetic
