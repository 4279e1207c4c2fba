import PhraseArithmetic.Evaluation.Cursor
import PhraseArithmetic.Proofs.Evaluation.Ending

/-!
# The phrases that have a value

A phrase has a value exactly when it is words without a number, then a chain of defined operations,
then at most one unrecognized word. The value is the left fold of the chain, each result computed
in whole numbers and brought back into 64 bits.
-/
namespace PhraseArithmetic

/-- The exact result of an operation, brought back into 64 bits. -/
def Operator.wrapped (o : Operator) (lhs rhs : Int64) : Int64 :=
  Int64.ofInt (o.exact lhs.toInt rhs.toInt)

theorem Operator.wrapped_eq_combine (o : Operator) (lhs rhs : Int64) :
    o.wrapped lhs rhs = o.combine lhs rhs := by
  cases o with
  | plus => simp [wrapped, exact, combine, Int64.ofInt_add]
  | minus => simp [wrapped, exact, combine, Int64.ofInt_sub]
  | multiplied => simp [wrapped, exact, combine, Int64.ofInt_mul]
  | divided =>
    apply Int64.toInt.inj
    simp [wrapped, exact, combine, Int64.size]

/-- The left fold of a chain from its first number on. -/
def Chain.wrappedValue (c : Chain) : Int64 :=
  c.links.foldl (fun value l => l.1.wrapped value l.2) c.first

theorem Chain.wrappedValue_eq_value (c : Chain) : c.wrappedValue = c.value := by
  simp only [wrappedValue, value, foldFrom, Operator.wrapped_eq_combine]

namespace Token

/-- A phrase of the form that has a value, with its value. -/
def Accepts (tokens : List Token) (value : Int64) : Prop :=
  ∃ (before : List Token) (chain : Chain) (last : List Token),
    tokens = before ++ (chain.tokens ++ last) ∧ (∀ t ∈ before, t.isNumber = false) ∧
      (∀ l ∈ chain.links, l.IsDefined) ∧ (last = [] ∨ ∃ w, last = [unrecognized w]) ∧
        chain.wrappedValue = value

theorem ending_none_iff {tail : List Token} :
    Ending tail none ↔ tail = [] ∨ ∃ w, tail = [unrecognized w] := by
  constructor
  · intro h
    cases h with
    | nothing => exact .inl rfl
    | word w => exact .inr ⟨w, rfl⟩
  · rintro (rfl | ⟨w, rfl⟩)
    · exact .nothing
    · exact .word w

theorem accepts_iff {tokens : List Token} {value : Int64} :
    Accepts tokens value ↔ ∃ (before : List Token) (chain : Chain) (tail : List Token),
      Splits tokens before chain tail ∧ Ending tail none ∧ chain.value = value := by
  simp only [Accepts, ending_none_iff, Chain.wrappedValue_eq_value]
  constructor
  · rintro ⟨before, chain, last, rfl, hbefore, hdefined, hlast, hvalue⟩
    exact ⟨before, chain, last, ⟨rfl, hbefore, hdefined⟩, hlast, hvalue⟩
  · rintro ⟨before, chain, last, ⟨rfl, hbefore, hdefined⟩, hlast, hvalue⟩
    exact ⟨before, chain, last, rfl, hbefore, hdefined, hlast, hvalue⟩

theorem evaluate_of_accepts {tokens : List Token} {value : Int64} (h : Accepts tokens value) :
    evaluate tokens = .ok value := by
  obtain ⟨before, chain, tail, hsplits, hending, rfl⟩ := accepts_iff.1 h
  exact hsplits.evaluate_settle hending

theorem accepts_of_evaluate {tokens : List Token} {value : Int64}
    (h : evaluate tokens = .ok value) : Accepts tokens value := by
  obtain ⟨before, chain, tail, hsplits, hending, hvalue⟩ := exists_splits_of_ok h
  exact accepts_iff.2 ⟨before, chain, tail, hsplits, hending, hvalue⟩

/-- Evaluation and the walk by place give a value to the phrases of this form and to no others. -/
theorem evaluate_eq_ok_iff_accepts (tokens : List Token) (value : Int64) :
    (evaluate tokens = .ok value ↔ Accepts tokens value) ∧
      (Cursor.walk tokens Cursor.start = .ok value ↔ Accepts tokens value) := by
  have h : evaluate tokens = .ok value ↔ Accepts tokens value :=
    ⟨accepts_of_evaluate, evaluate_of_accepts⟩
  exact ⟨h, by rwa [Cursor.walk_start]⟩

example : evaluate [unrecognized "about", number 7, operator .minus, number 9, unrecognized "or"] =
    .ok (-2) := by decide

end Token
end PhraseArithmetic
