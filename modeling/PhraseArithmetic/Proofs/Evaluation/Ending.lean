import Mathlib.Data.List.Induction
import PhraseArithmetic.Evaluation.Chain

/-!
# Where a chain ends

Every phrase with a number splits into the words before its first number, the longest chain of
defined operations from there and the tokens that the chain does not take. How those tokens begin
decides between the value of the chain and one of three faults; nothing behind that place matters.
-/
namespace PhraseArithmetic.Token

def isOperator : Token → Bool
  | operator _ => true
  | _ => false

/-- A chain of defined operations, the words passed over before it and the tokens behind it. -/
structure Splits (tokens before : List Token) (chain : Chain) (tail : List Token) : Prop where
  tokens_eq : tokens = before ++ (chain.tokens ++ tail)
  before_isNumber : ∀ t ∈ before, t.isNumber = false
  isDefined : ∀ l ∈ chain.links, l.IsDefined

/-- What comes behind is left to the tail. -/
theorem Splits.append {tokens before : List Token} {chain : Chain} {tail : List Token}
    (h : Splits tokens before chain tail) (more : List Token) :
    Splits (tokens ++ more) before chain (tail ++ more) where
  tokens_eq := by simp [h.tokens_eq]
  before_isNumber := h.before_isNumber
  isDefined := h.isDefined

/-- How the tokens that a longest chain does not take begin, and the fault of that if it is one. -/
inductive Ending : List Token → Option Fault → Prop where
  | nothing : Ending [] none
  | word (w : String) : Ending [unrecognized w] none
  | noOperand (t : Token) (rest : List Token) (hw : ∀ w, t :: rest ≠ [unrecognized w])
      (hn : ∀ n, rest.head? ≠ some (number n)) : Ending (t :: rest) (some .invalidSyntax)
  | noOperator (t : Token) (n : Int64) (rest : List Token) (ht : t.isOperator = false) :
      Ending (t :: number n :: rest) (some .unsupportedOperator)
  | zeroDivisor (rest : List Token) :
      Ending (operator .divided :: number 0 :: rest) (some .divisionByZero)

def settle (value : Int64) : Option Fault → Except Fault Int64
  | none => .ok value
  | some fault => .error fault

theorem evaluateFrom_ending {tail : List Token} {fault : Option Fault} (h : Ending tail fault)
    (value : Int64) : evaluateFrom value tail = settle value fault := by
  cases h with
  | nothing => rfl
  | word w => rfl
  | noOperand t rest hw hn =>
    cases rest with
    | nil =>
      cases t with
      | number n => rfl
      | operator o => rfl
      | unrecognized w => exact absurd rfl (hw w)
    | cons u rest =>
      cases u with
      | number n => exact absurd rfl (hn n)
      | operator o => cases t <;> rfl
      | unrecognized w => cases t <;> rfl
  | noOperator t n rest ht =>
    cases t with
    | number m => rfl
    | operator o => exact absurd ht (by simp [isOperator])
    | unrecognized w => rfl
  | zeroDivisor rest => rfl

/-- Two tokens that are not an operation end a chain. -/
theorem ending_cons_cons {t u : Token} (rest : List Token)
    (h : ¬∃ l : Link, l.IsDefined ∧ l.tokens = [t, u]) :
    ∃ fault, Ending (t :: u :: rest) fault := by
  cases u with
  | operator p => exact ⟨_, .noOperand t _ (by simp) (by simp)⟩
  | unrecognized w => exact ⟨_, .noOperand t _ (by simp) (by simp)⟩
  | number n =>
    cases t with
    | number m => exact ⟨_, .noOperator (number m) n rest rfl⟩
    | unrecognized w => exact ⟨_, .noOperator (unrecognized w) n rest rfl⟩
    | operator o =>
      have hd : o = .divided ∧ n = 0 := by
        by_contra hd
        exact h ⟨(o, n), hd, rfl⟩
      obtain ⟨rfl, rfl⟩ := hd
      exact ⟨_, .zeroDivisor rest⟩

theorem exists_links_ending (rest : List Token) :
    ∃ (links : List Link) (tail : List Token) (fault : Option Fault),
      rest = links.flatMap Link.tokens ++ tail ∧ (∀ l ∈ links, l.IsDefined) ∧
        Ending tail fault := by
  induction rest using List.twoStepInduction with
  | nil => exact ⟨[], [], none, rfl, by simp, .nothing⟩
  | singleton t =>
    cases t with
    | unrecognized w => exact ⟨[], _, _, rfl, by simp, .word w⟩
    | number n => exact ⟨[], _, _, rfl, by simp, .noOperand _ _ (by simp) (by simp)⟩
    | operator o => exact ⟨[], _, _, rfl, by simp, .noOperand _ _ (by simp) (by simp)⟩
  | cons_cons t u rest ih _ =>
    by_cases h : ∃ l : Link, l.IsDefined ∧ l.tokens = [t, u]
    · obtain ⟨l, hl, htokens⟩ := h
      obtain ⟨links, tail, fault, rfl, hlinks, hending⟩ := ih
      refine ⟨l :: links, tail, fault, by simp [htokens], ?_, hending⟩
      simpa [hl] using hlinks
    · obtain ⟨fault, hending⟩ := ending_cons_cons rest h
      exact ⟨[], t :: u :: rest, fault, rfl, by simp, hending⟩

theorem exists_first_number {tokens : List Token} (h : ∃ t ∈ tokens, t.isNumber = true) :
    ∃ (before : List Token) (n : Int64) (rest : List Token),
      tokens = before ++ number n :: rest ∧ ∀ t ∈ before, t.isNumber = false := by
  induction tokens with
  | nil => simp at h
  | cons t tokens ih =>
    cases t with
    | number n => exact ⟨[], n, tokens, rfl, by simp⟩
    | operator o =>
      obtain ⟨before, n, rest, rfl, hbefore⟩ := ih (by simpa [isNumber] using h)
      exact ⟨operator o :: before, n, rest, rfl, by simpa [isNumber] using hbefore⟩
    | unrecognized w =>
      obtain ⟨before, n, rest, rfl, hbefore⟩ := ih (by simpa [isNumber] using h)
      exact ⟨unrecognized w :: before, n, rest, rfl, by simpa [isNumber] using hbefore⟩

theorem exists_splits {tokens : List Token} (h : ¬∀ t ∈ tokens, t.isNumber = false) :
    ∃ (before : List Token) (chain : Chain) (tail : List Token) (fault : Option Fault),
      Splits tokens before chain tail ∧ Ending tail fault := by
  obtain ⟨before, n, rest, rfl, hbefore⟩ := exists_first_number (by simpa using h)
  obtain ⟨links, tail, fault, rfl, hlinks, hending⟩ := exists_links_ending rest
  exact ⟨before, ⟨n, links⟩, tail, fault, ⟨rfl, hbefore, hlinks⟩, hending⟩

theorem Splits.evaluate_eq {tokens before : List Token} {chain : Chain} {tail : List Token}
    (h : Splits tokens before chain tail) :
    evaluate tokens = evaluateFrom chain.value tail := by
  rw [h.tokens_eq, evaluate_append h.before_isNumber]
  exact evaluateFrom_links h.isDefined chain.first tail

/-- The leftmost place where no defined operation stands decides. -/
theorem Splits.evaluate_settle {tokens before : List Token} {chain : Chain} {tail : List Token}
    {fault : Option Fault} (h : Splits tokens before chain tail) (he : Ending tail fault) :
    evaluate tokens = settle chain.value fault := by
  rw [h.evaluate_eq, evaluateFrom_ending he]

theorem evaluate_of_forall_isNumber {tokens : List Token} (h : ∀ t ∈ tokens, t.isNumber = false) :
    evaluate tokens = .error .noNumberFound := by
  simpa [evaluate] using evaluate_append h []

theorem exists_splits_of_evaluate {tokens : List Token}
    (h : evaluate tokens ≠ .error .noNumberFound) :
    ∃ (before : List Token) (chain : Chain) (tail : List Token) (fault : Option Fault),
      Splits tokens before chain tail ∧ Ending tail fault := by
  apply exists_splits
  intro hn
  exact h (evaluate_of_forall_isNumber hn)

theorem exists_splits_of_ok {tokens : List Token} {value : Int64}
    (h : evaluate tokens = .ok value) :
    ∃ before chain tail, Splits tokens before chain tail ∧ Ending tail none ∧
      chain.value = value := by
  obtain ⟨before, chain, tail, fault, hsplits, hending⟩ :=
    exists_splits_of_evaluate (h.trans_ne (by simp))
  rw [hsplits.evaluate_settle hending] at h
  cases fault with
  | none => exact ⟨before, chain, tail, hsplits, hending, Except.ok.inj h⟩
  | some fault => simp [settle] at h

theorem exists_splits_of_error {tokens : List Token} {fault : Fault}
    (h : evaluate tokens = .error fault) (hn : fault ≠ .noNumberFound) :
    ∃ before chain tail, Splits tokens before chain tail ∧ Ending tail (some fault) := by
  obtain ⟨before, chain, tail, ending, hsplits, hending⟩ :=
    exists_splits_of_evaluate (h.trans_ne (by simpa using hn))
  rw [hsplits.evaluate_settle hending] at h
  cases ending with
  | none => simp [settle] at h
  | some other =>
    obtain rfl : other = fault := Except.error.inj h
    exact ⟨before, chain, tail, hsplits, hending⟩

theorem fault_of_evaluate {tokens : List Token} {fault : Fault}
    (h : evaluate tokens = .error fault) :
    fault = .divisionByZero ∨ fault = .unsupportedOperator ∨ fault = .invalidSyntax ∨
      fault = .noNumberFound := by
  by_cases hn : evaluate tokens = .error .noNumberFound
  · rw [hn] at h
    simp [← Except.error.inj h]
  · obtain ⟨before, chain, tail, ending, hsplits, hending⟩ := exists_splits_of_evaluate hn
    rw [hsplits.evaluate_settle hending] at h
    cases hending <;> simp [settle] at h <;> simp [← h]

end PhraseArithmetic.Token
