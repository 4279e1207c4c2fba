import PhraseArithmetic.Evaluation.Cursor
import PhraseArithmetic.Proofs.Evaluation.Ending

/-!
# The leftmost faulty pair

Behind its first number a phrase is read in pairs, a word in the place of an operator and a word in
the place of its operand. The leftmost pair that has a fault decides, however many others there
are. Within a pair a fault of the operand comes before one of the operator and that before one of
the divisor.
-/
namespace PhraseArithmetic
namespace Token

def isUnrecognized : Token → Bool
  | unrecognized _ => true
  | _ => false

/-- What stands in the place of an operator and what stands behind it, if anything does. -/
structure Pair where
  word : Token
  operand : Option Token
  deriving DecidableEq, Repr

/-- The last pair may lack its operand. -/
def pairs : List Token → List Pair
  | [] => []
  | [t] => [⟨t, none⟩]
  | t :: u :: rest => ⟨t, some u⟩ :: pairs rest

namespace Pair

def hasOperand (p : Pair) : Bool := p.operand.any isNumber

def hasOperator (p : Pair) : Bool := p.word.isOperator

def dividesByZero (p : Pair) : Bool := p.word = operator .divided && p.operand = some (number 0)

/-- One unrecognized word may stand alone at the end. -/
def isLastWord (p : Pair) : Bool := p.word.isUnrecognized && p.operand.isNone

def isFaulty (p : Pair) : Bool :=
  !p.isLastWord && (!p.hasOperand || !p.hasOperator || p.dividesByZero)

/-- What is wrong with a faulty pair. -/
def fault (p : Pair) : Fault :=
  if !p.hasOperand then .invalidSyntax
  else if !p.hasOperator then .unsupportedOperator
  else .divisionByZero

end Pair
end Token

def Link.pair (l : Link) : Token.Pair := ⟨.operator l.1, some (.number l.2)⟩

theorem Link.isFaulty_pair {l : Link} (h : l.IsDefined) : l.pair.isFaulty = false := by
  have hzero : l.pair.dividesByZero = false := by
    simpa [pair, Token.Pair.dividesByZero, IsDefined] using h
  have hword : l.pair.isLastWord = false := rfl
  have hoperand : l.pair.hasOperand = true := rfl
  have hoperator : l.pair.hasOperator = true := rfl
  simp [Token.Pair.isFaulty, hword, hoperand, hoperator, hzero]

namespace Token

theorem pairs_links_append (links : List Link) (tail : List Token) :
    pairs (links.flatMap Link.tokens ++ tail) = links.map Link.pair ++ pairs tail := by
  induction links with
  | nil => rfl
  | cons l links ih => simp [Link.tokens, Link.pair, pairs, ih]

/-- Where a longest chain ends, the next pair is faulty unless the phrase ends there too. -/
theorem Ending.find?_pairs {tail : List Token} {fault : Option Fault} (h : Ending tail fault) :
    ((pairs tail).find? Pair.isFaulty).map Pair.fault = fault := by
  cases h with
  | nothing => rfl
  | word w => rfl
  | zeroDivisor rest => rfl
  | noOperator t n rest ht =>
    have hfaulty : (Pair.mk t (some (number n))).isFaulty = true := by
      simp [Pair.isFaulty, Pair.isLastWord, Pair.hasOperator, ht]
    rw [pairs, List.find?_cons_of_pos hfaulty]
    simp [Pair.fault, Pair.hasOperand, Pair.hasOperator, isNumber, ht]
  | noOperand t rest hw hn =>
    -- the operand is missing, or it stands there and is no number
    cases rest with
    | nil =>
      cases t with
      | number m => rfl
      | operator o => rfl
      | unrecognized w => exact absurd rfl (hw w)
    | cons u rest =>
      have hoperand : (Pair.mk t (some u)).hasOperand = false := by
        cases u with
        | number n => exact absurd rfl (hn n)
        | operator o => rfl
        | unrecognized w => rfl
      have hfaulty : (Pair.mk t (some u)).isFaulty = true := by
        simp [Pair.isFaulty, Pair.isLastWord, hoperand]
      rw [pairs, List.find?_cons_of_pos hfaulty]
      simp [Pair.fault, hoperand]

/-- The pairs of the chain come first and none of them is faulty. -/
theorem find?_pairs_links_append {links : List Link} (h : ∀ l ∈ links, l.IsDefined)
    {tail : List Token} {fault : Option Fault} (he : Ending tail fault) :
    ((pairs (links.flatMap Link.tokens ++ tail)).find? Pair.isFaulty).map Pair.fault = fault := by
  have hlinks : (links.map Link.pair).find? Pair.isFaulty = none := by
    rw [List.find?_eq_none]
    intro p hp
    obtain ⟨l, hl, rfl⟩ := List.mem_map.1 hp
    simp [Link.isFaulty_pair (h l hl)]
  rw [pairs_links_append, List.find?_append, hlinks, Option.none_or, he.find?_pairs]

theorem exists_evaluate_eq_settle {before : List Token} (h : ∀ t ∈ before, t.isNumber = false)
    (n : Int64) (rest : List Token) :
    ∃ value, evaluate (before ++ number n :: rest) =
      settle value (((pairs rest).find? Pair.isFaulty).map Pair.fault) := by
  obtain ⟨links, tail, fault, rfl, hlinks, hending⟩ := exists_links_ending rest
  have hsplits : Splits (before ++ number n :: (links.flatMap Link.tokens ++ tail)) before
      ⟨n, links⟩ tail := ⟨rfl, h, hlinks⟩
  rw [find?_pairs_links_append hlinks hending]
  exact ⟨_, hsplits.evaluate_settle hending⟩

/-- How evaluation ends. A phrase without a number has nothing to begin with. One with no faulty
pair behind its first number has a value, and in any other the leftmost faulty pair is what is
wrong. The walk by place ends in the same way. -/
theorem evaluate_leftmost_faulty_pair (tokens : List Token) :
    ((∀ t ∈ tokens, t.isNumber = false) → evaluate tokens = .error .noNumberFound) ∧
    (∀ before n rest, tokens = before ++ number n :: rest → (∀ t ∈ before, t.isNumber = false) →
      ((pairs rest).find? Pair.isFaulty = none → ∃ value, evaluate tokens = .ok value) ∧
      ∀ p, (pairs rest).find? Pair.isFaulty = some p → evaluate tokens = .error p.fault) ∧
    evaluate tokens ≠ .error .unsupportedOperations ∧
    evaluate tokens ≠ .error .nonMathQuestion ∧
    Cursor.walk tokens Cursor.start = evaluate tokens := by
  refine ⟨evaluate_of_forall_isNumber, ?_, ?_, ?_, Cursor.walk_start tokens⟩
  · rintro before n rest rfl hbefore
    obtain ⟨value, hvalue⟩ := exists_evaluate_eq_settle hbefore n rest
    rw [hvalue]
    constructor
    · intro hnone
      exact ⟨value, by rw [hnone, Option.map_none, settle]⟩
    · intro p hp
      rw [hp, Option.map_some, settle]
  · intro h
    simpa using fault_of_evaluate h
  · intro h
    simpa using fault_of_evaluate h

/-- The division by zero comes before a pair with two faults, and the last word is none. -/
example :
    (pairs [operator .plus, number 2, operator .divided, number 0, number 7, operator .plus,
      unrecognized "by"]).map Pair.isFaulty = [false, true, true, false] ∧
    evaluate [number 1, operator .plus, number 2, operator .divided, number 0, number 7,
      operator .plus, unrecognized "by"] = .error .divisionByZero := by decide

end Token
end PhraseArithmetic
