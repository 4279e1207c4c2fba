import PhraseArithmetic.Proofs.Evaluation.Ending
import PhraseArithmetic.Validation

/-!
# Validity beside value

Validation looks at the places behind numbers only and evaluation at every place from the first
number on. They agree on which phrases have no number. A phrase with a value is valid unless it
ends in a word; a valid phrase can only lack an operand or divide by zero.
-/
namespace PhraseArithmetic

theorem Chain.getLast?_tokens (chain : Chain) :
    ∃ n, chain.tokens.getLast? = some (.number n) := by
  obtain ⟨first, links⟩ := chain
  rcases List.eq_nil_or_concat links with rfl | ⟨links, l, rfl⟩
  · exact ⟨first, rfl⟩
  · exact ⟨l.2, by simp [tokens, Link.tokens, List.getLast?_cons, List.getLast?_append]⟩

namespace Token

theorem validateFrom_append {before : List Token} (h : ∀ t ∈ before, t.isNumber = false)
    (found : Bool) (rest : List Token) :
    validateFrom found (before ++ rest) = validateFrom found rest := by
  induction before with
  | nil => rfl
  | cons t before ih =>
    have ih := ih fun u hu => h u (by simp [hu])
    cases t with
    | number n => exact absurd (h (number n) (by simp)) (by simp [isNumber])
    | operator o => exact ih
    | unrecognized w => exact ih

/-- To validation a chain is no more than one number. -/
theorem validateFrom_chain (chain : Chain) (found : Bool) (n : Int64) (tail : List Token) :
    validateFrom found (chain.tokens ++ tail) = validateFrom true (number n :: tail) := by
  obtain ⟨first, links⟩ := chain
  induction links generalizing first found with
  | nil => rfl
  | cons l links ih => exact ih true l.2

theorem validateFrom_true_ne_nonMathQuestion (tokens : List Token) :
    validateFrom true tokens ≠ .error .nonMathQuestion := by
  induction tokens with
  | nil => simp [validateFrom]
  | cons t tokens ih =>
    cases t with
    | operator o => exact ih
    | unrecognized w => exact ih
    | number n =>
      cases tokens with
      | nil => simp [validateFrom, followerFault?]
      | cons u tokens =>
        cases u with
        | number m => simp [validateFrom, followerFault?]
        | operator o => exact ih
        | unrecognized w => simp [validateFrom, followerFault?]

theorem validate_of_forall_isNumber {tokens : List Token} (h : ∀ t ∈ tokens, t.isNumber = false) :
    validate tokens = .error .nonMathQuestion := by
  simpa [validate, validateFrom] using validateFrom_append h false []

section
variable {tokens before : List Token} {chain : Chain} {tail : List Token}

theorem Splits.validate_eq (h : Splits tokens before chain tail) :
    validate tokens = validateFrom true (number chain.value :: tail) := by
  rw [h.tokens_eq, validate, validateFrom_append h.before_isNumber]
  exact validateFrom_chain chain false chain.value tail

theorem evaluate_eq_noNumberFound_iff :
    evaluate tokens = .error .noNumberFound ↔ ∀ t ∈ tokens, t.isNumber = false := by
  constructor
  · intro h
    by_contra hn
    obtain ⟨before, chain, tail, fault, hsplits, hending⟩ := exists_splits hn
    rw [hsplits.evaluate_settle hending] at h
    cases hending <;> simp [settle] at h
  · exact evaluate_of_forall_isNumber

theorem validate_eq_nonMathQuestion_iff :
    validate tokens = .error .nonMathQuestion ↔ ∀ t ∈ tokens, t.isNumber = false := by
  constructor
  · intro h
    by_contra hn
    obtain ⟨before, chain, tail, fault, hsplits, hending⟩ := exists_splits hn
    rw [hsplits.validate_eq] at h
    exact validateFrom_true_ne_nonMathQuestion _ h
  · exact validate_of_forall_isNumber

/-- A phrase ends in a word when its last token is unrecognized. -/
def EndsInWord (tokens : List Token) : Prop := ∃ w, tokens.getLast? = some (unrecognized w)

theorem validate_of_evaluate {value : Int64} (h : evaluate tokens = .ok value) :
    (EndsInWord tokens ∧ validate tokens = .error .unsupportedOperations) ∨
      (¬EndsInWord tokens ∧ validate tokens = .ok ()) := by
  obtain ⟨before, chain, tail, hsplits, hending, -⟩ := exists_splits_of_ok h
  rw [hsplits.validate_eq]
  cases hending with
  | nothing =>
    right
    obtain ⟨n, hlast⟩ := chain.getLast?_tokens
    refine ⟨?_, rfl⟩
    rintro ⟨w, hw⟩
    simp [hsplits.tokens_eq, List.getLast?_append, hlast] at hw
  | word w =>
    left
    exact ⟨⟨w, by simp [hsplits.tokens_eq, List.getLast?_append]⟩, rfl⟩

/-- Defined operations lead up to `t`, a number follows it, and it is no operator. -/
def StandsForOperator (tokens : List Token) (t : Token) : Prop :=
  t.isOperator = false ∧ ∃ (before : List Token) (chain : Chain) (n : Int64) (rest : List Token),
    Splits tokens before chain (t :: number n :: rest)

theorem evaluate_eq_unsupportedOperator_iff :
    evaluate tokens = .error .unsupportedOperator ↔ ∃ t, StandsForOperator tokens t := by
  constructor
  · intro h
    obtain ⟨before, chain, tail, hsplits, hending⟩ := exists_splits_of_error h (by simp)
    cases hending with
    | noOperator t n rest ht => exact ⟨t, ht, before, chain, n, rest, hsplits⟩
  · rintro ⟨t, ht, before, chain, n, rest, hsplits⟩
    exact hsplits.evaluate_settle (.noOperator t n rest ht)

theorem StandsForOperator.validate_eq {t : Token} {fault : Fault} (h : StandsForOperator tokens t)
    (hf : followerFault? (some t) = some fault) : validate tokens = .error fault := by
  obtain ⟨_, before, chain, n, rest, hsplits⟩ := h
  rw [hsplits.validate_eq]
  simp [validateFrom, hf]

/-- Behind the first number a number follows every operator, and it is not zero after `divided`. -/
def OperandsFollow (tokens : List Token) : Prop :=
  ∀ (front : List Token) (o : Operator) (rest : List Token), tokens = front ++ operator o :: rest →
    (∃ t ∈ front, t.isNumber = true) →
      ∃ n, rest.head? = some (number n) ∧ ¬(o = .divided ∧ n = 0)

theorem exists_link_of_flatMap_eq {links : List Link} {front rest : List Token} {o : Operator}
    (h : links.flatMap Link.tokens = front ++ operator o :: rest) :
    ∃ n, rest.head? = some (number n) ∧ (o, n) ∈ links := by
  induction links generalizing front with
  | nil => simp at h
  | cons l links ih =>
    rw [List.flatMap_cons, Link.tokens, List.cons_append, List.singleton_append] at h
    cases front with
    | nil =>
      obtain ⟨ho, hrest⟩ := List.cons.inj h
      obtain rfl := operator.inj ho
      exact ⟨l.2, by simp [← hrest], by simp⟩
    | cons t front =>
      cases front with
      | nil => simp at h
      | cons u front =>
        obtain ⟨n, hn, hmem⟩ := ih (List.cons.inj (List.cons.inj h).2).2
        exact ⟨n, hn, List.mem_cons_of_mem l hmem⟩

theorem operandsFollow_chain (h : ∀ l ∈ chain.links, l.IsDefined) : OperandsFollow chain.tokens := by
  intro front o rest htokens hfront
  cases front with
  | nil => simp at hfront
  | cons t front =>
    obtain ⟨n, hn, hmem⟩ := exists_link_of_flatMap_eq (List.cons.inj htokens).2
    exact ⟨n, hn, h _ hmem⟩

theorem OperandsFollow.append (hbefore : ∀ t ∈ before, t.isNumber = false)
    (h : OperandsFollow tokens) : OperandsFollow (before ++ tokens) := by
  induction before with
  | nil => exact h
  | cons b before ih =>
    intro front o rest htokens hfront
    cases front with
    | nil => simp at hfront
    | cons t front =>
      obtain ⟨rfl, hrest⟩ := List.cons.inj htokens
      have hb := hbefore b (by simp)
      exact ih (fun u hu => hbefore u (by simp [hu])) front o rest hrest
        (by simpa [hb] using hfront)

theorem operandsFollow_of_splits (h : Splits tokens before chain []) : OperandsFollow tokens := by
  rw [h.tokens_eq, List.append_nil]
  exact (operandsFollow_chain h.isDefined).append h.before_isNumber

/-- The token behind a longest chain is an operator that lacks its operand or divides by zero. -/
theorem not_operandsFollow_of_splits {o : Operator} {rest : List Token} {fault : Fault}
    (h : Splits tokens before chain (operator o :: rest))
    (he : Ending (operator o :: rest) (some fault)) : ¬OperandsFollow tokens := by
  intro hfollow
  obtain ⟨n, hn, hzero⟩ := hfollow (before ++ chain.tokens) o rest (by simp [h.tokens_eq])
    ⟨number chain.first, by simp [Chain.tokens], rfl⟩
  cases he with
  | noOperand t rest hw hnone => exact hnone n hn
  | noOperator t m rest ht => simp [isOperator] at ht
  | zeroDivisor rest => exact hzero ⟨rfl, (number.inj (Option.some.inj hn)).symm⟩

theorem evaluate_of_validate (h : validate tokens = .ok ()) :
    (OperandsFollow tokens ∧ ∃ value, evaluate tokens = .ok value) ∨
      (¬OperandsFollow tokens ∧
        (evaluate tokens = .error .divisionByZero ∨ evaluate tokens = .error .invalidSyntax)) := by
  have hn : ¬∀ t ∈ tokens, t.isNumber = false := by
    intro hn
    rw [validate_of_forall_isNumber hn] at h
    simp at h
  obtain ⟨before, chain, tail, fault, hsplits, hending⟩ := exists_splits hn
  rw [hsplits.evaluate_settle hending]
  rw [hsplits.validate_eq] at h
  cases hending with
  | nothing => exact .inl ⟨operandsFollow_of_splits hsplits, chain.value, rfl⟩
  | word w => simp [validateFrom, followerFault?] at h
  | noOperand t rest hw hnone =>
    cases t with
    | number m => simp [validateFrom, followerFault?] at h
    | unrecognized w => simp [validateFrom, followerFault?] at h
    | operator o =>
      exact .inr ⟨not_operandsFollow_of_splits hsplits (.noOperand _ _ hw hnone), .inr rfl⟩
  | noOperator t m rest ht =>
    cases t with
    | number m => simp [validateFrom, followerFault?] at h
    | unrecognized w => simp [validateFrom, followerFault?] at h
    | operator o => simp [isOperator] at ht
  | zeroDivisor rest =>
    exact .inr ⟨not_operandsFollow_of_splits hsplits (.zeroDivisor rest), .inl rfl⟩

end

/-- How the outcomes of evaluation and validation of one phrase are bound to each other. -/
theorem evaluate_validate_agree (tokens : List Token) :
    (evaluate tokens = .error .noNumberFound ↔ validate tokens = .error .nonMathQuestion) ∧
    (∀ value, evaluate tokens = .ok value →
      (validate tokens = .ok () ↔ ¬EndsInWord tokens) ∧
        (validate tokens = .error .unsupportedOperations ↔ EndsInWord tokens)) ∧
    ((evaluate tokens = .error .unsupportedOperator ↔ ∃ t, StandsForOperator tokens t) ∧
      (∀ n, StandsForOperator tokens (number n) → validate tokens = .error .invalidSyntax) ∧
        ∀ w, StandsForOperator tokens (unrecognized w) →
          validate tokens = .error .unsupportedOperations) ∧
    (validate tokens = .ok () →
      ((∃ value, evaluate tokens = .ok value) ∨ evaluate tokens = .error .divisionByZero ∨
        evaluate tokens = .error .invalidSyntax) ∧
          ((∃ value, evaluate tokens = .ok value) ↔ OperandsFollow tokens)) := by
  refine ⟨?_, ?_, ⟨?_, ?_, ?_⟩, ?_⟩
  · rw [evaluate_eq_noNumberFound_iff, validate_eq_nonMathQuestion_iff]
  · intro value h
    rcases validate_of_evaluate h with ⟨hlast, hv⟩ | ⟨hlast, hv⟩ <;> simp [hlast, hv]
  · exact evaluate_eq_unsupportedOperator_iff
  · intro n h
    exact h.validate_eq rfl
  · intro w h
    exact h.validate_eq rfl
  · intro h
    rcases evaluate_of_validate h with ⟨hf, value, hv⟩ | ⟨hf, hv | hv⟩ <;> simp [hf, hv]

example : evaluate [number 5, operator .plus] = .error .invalidSyntax ∧
    validate [number 5, operator .plus] = .ok () := by decide

end Token
end PhraseArithmetic
