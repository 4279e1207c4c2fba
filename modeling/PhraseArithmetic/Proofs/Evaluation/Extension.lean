import PhraseArithmetic.Proofs.Evaluation.Stages

/-!
# Faults and what comes behind them

A fault that has been met stays, whatever comes behind the phrase. Only a phrase that stops right
where an operand is due can be mended by more tokens, and only an unrecognized last word, which is
passed over at the end of a phrase, becomes a fault when more tokens come.
-/
namespace PhraseArithmetic.Token

/-- The last token stands behind a front with a value that ends in a number. -/
def StopsShort (tokens : List Token) : Prop :=
  EndsInNumber tokens.dropLast ∧ ∃ value, evaluate tokens.dropLast = .ok value

section
variable {front tail : List Token} {fault : Fault}

/-- A tail with a fault keeps it unless its first token only lacks an operand. -/
theorem Ending.append (h : Ending tail (some fault))
    (hshort : fault = .invalidSyntax → ∀ t, tail ≠ [t]) (more : List Token) :
    Ending (tail ++ more) (some fault) := by
  cases h with
  | noOperand t rest hw hn =>
    cases rest with
    | nil => exact absurd rfl (hshort rfl t)
    | cons u rest => exact .noOperand t (u :: (rest ++ more)) (by simp) (by simpa using hn)
  | noOperator t n rest ht => exact .noOperator t n (rest ++ more) ht
  | zeroDivisor rest => exact .zeroDivisor (rest ++ more)

theorem evaluate_append_of_error (h : evaluate front = .error fault)
    (hfault : fault = .divisionByZero ∨ fault = .unsupportedOperator) (more : List Token) :
    evaluate (front ++ more) = .error fault := by
  have hn : fault ≠ .noNumberFound := by rcases hfault with rfl | rfl <;> simp
  have hsyntax : fault ≠ .invalidSyntax := by rcases hfault with rfl | rfl <;> simp
  obtain ⟨before, chain, tail, hsplits, hending⟩ := exists_splits_of_error h hn
  exact (hsplits.append more).evaluate_settle
    (hending.append (fun hf => absurd hf hsyntax) more)

/-- A phrase of invalid syntax that does not stop short is refused for good. -/
theorem evaluate_append_of_not_stopsShort (h : evaluate front = .error .invalidSyntax)
    (hshort : ¬StopsShort front) (more : List Token) :
    evaluate (front ++ more) = .error .invalidSyntax := by
  obtain ⟨before, chain, tail, hsplits, hending⟩ := exists_splits_of_error h (by simp)
  refine (hsplits.append more).evaluate_settle (hending.append (fun _ t ht => hshort ?_) more)
  subst ht
  have hfront : front.dropLast = before ++ chain.tokens := by
    rw [hsplits.tokens_eq, ← List.append_assoc, List.dropLast_concat]
  have hsplits' : Splits front.dropLast before chain [] :=
    ⟨by simp [hfront], hsplits.before_isNumber, hsplits.isDefined⟩
  obtain ⟨n, hn⟩ := chain.getLast?_tokens
  exact ⟨⟨n, by simp [hfront, List.getLast?_append, hn]⟩, _, hsplits'.evaluate_settle .nothing⟩

/-- Any number mends a phrase that stops short: it is then wrong in another way or not at all. -/
theorem StopsShort.evaluate_ne (h : StopsShort front) (m : Int64) :
    evaluate (front ++ [number m]) ≠ .error .invalidSyntax := by
  obtain ⟨hlast, value, hvalue⟩ := h
  have hne : front ≠ [] := by
    rintro rfl
    simp [EndsInNumber] at hlast
  obtain ⟨before, t, rfl⟩ := List.eq_nil_or_concat front |>.resolve_left hne
  rw [List.concat_eq_append, List.dropLast_concat] at hlast hvalue
  rw [List.concat_eq_append, List.append_assoc, evaluate_append_of_endsInNumber hvalue hlast]
  cases t with
  | number n => simp [evaluate, evaluateFrom]
  | unrecognized w => simp [evaluate, evaluateFrom]
  | operator o =>
    by_cases hzero : o = .divided ∧ m = 0 <;>
      simp [evaluate, evaluateFrom, Operator.apply, hzero]

theorem forall_invalidSyntax_iff (h : evaluate front = .error .invalidSyntax) :
    (∀ more, evaluate (front ++ more) = .error .invalidSyntax) ↔ ¬StopsShort front := by
  constructor
  · intro hall hshort
    exact hshort.evaluate_ne 0 (hall _)
  · intro hshort more
    exact evaluate_append_of_not_stopsShort h hshort more

/-- The last word was passed over, and now it stands in the place of an operator. -/
theorem evaluate_append_of_endsInWord {value : Int64} (h : evaluate front = .ok value)
    (hlast : EndsInWord front) (t : Token) (more : List Token) :
    evaluate (front ++ t :: more) =
      .error (if t.isNumber then .unsupportedOperator else .invalidSyntax) := by
  obtain ⟨before, chain, tail, hsplits, hending, -⟩ := exists_splits_of_ok h
  obtain ⟨w, hw⟩ := hlast
  cases hending with
  | nothing =>
    obtain ⟨n, hn⟩ := chain.getLast?_tokens
    simp [hsplits.tokens_eq, List.getLast?_append, hn] at hw
  | word w =>
    rw [(hsplits.append (t :: more)).evaluate_eq]
    cases t <;> simp [evaluateFrom, isNumber]

/-- The number with a wrong token behind it stays where it is. -/
theorem validateFrom_append_of_error {found : Bool} (h : validateFrom found front = .error fault)
    (hfault : fault ≠ .nonMathQuestion) (more : List Token) :
    validateFrom found (front ++ more) = .error fault := by
  fun_induction validateFrom found front with
  | case1 => simp at h
  | case2 => exact absurd (Except.error.inj h).symm hfault
  | case3 found n rest other hother =>
    cases rest with
    | nil => simp [followerFault?] at hother
    | cons u rest =>
      rw [List.head?_cons] at hother
      simpa [validateFrom, hother] using h
  | case4 found n rest hnone ih =>
    cases rest with
    | nil => simp [validateFrom] at h
    | cons u rest =>
      rw [List.head?_cons] at hnone
      simpa [validateFrom, hnone] using ih h
  | case5 found t rest ht ih =>
    cases t with
    | number n => exact absurd rfl (ht n)
    | operator o => exact ih h
    | unrecognized w => exact ih h

end

/-- What more tokens can do to a phrase. A division by zero and a wrong operator stay. A phrase of
invalid syntax stays one unless it stops short, and then any number takes that fault away. A last
word that was passed over is refused once a token follows it. A fault of validity stays. -/
theorem faults_are_final (front : List Token) :
    (∀ fault, fault = .divisionByZero ∨ fault = .unsupportedOperator →
      evaluate front = .error fault → ∀ more, evaluate (front ++ more) = .error fault) ∧
    (evaluate front = .error .invalidSyntax →
      ((∀ more, evaluate (front ++ more) = .error .invalidSyntax) ↔ ¬StopsShort front) ∧
        (StopsShort front → ∀ m, evaluate (front ++ [number m]) ≠ .error .invalidSyntax)) ∧
    (∀ value, evaluate front = .ok value → EndsInWord front → ∀ t more,
      evaluate (front ++ t :: more) =
        .error (if t.isNumber then .unsupportedOperator else .invalidSyntax)) ∧
    ∀ fault, fault = .invalidSyntax ∨ fault = .unsupportedOperations →
      validate front = .error fault → ∀ more, validate (front ++ more) = .error fault := by
  refine ⟨?_, ?_, ?_, ?_⟩
  · intro fault hfault h
    exact evaluate_append_of_error h hfault
  · intro h
    exact ⟨forall_invalidSyntax_iff h, StopsShort.evaluate_ne⟩
  · intro value h hlast
    exact evaluate_append_of_endsInWord h hlast
  · intro fault hfault h
    apply validateFrom_append_of_error h
    rcases hfault with rfl | rfl <;> simp

/-- A zero divisor, a missing operand, a last word and a second number, each with more behind it. -/
theorem four_extended :
    evaluate [number 1, operator .divided, number 0, operator .plus, number 1] =
      .error .divisionByZero ∧
    StopsShort [number 5, operator .divided] ∧
    (¬∀ more, evaluate ([number 5, operator .divided] ++ more) = .error .invalidSyntax) ∧
    evaluate [number 5, operator .divided, number 0] ≠ .error .invalidSyntax ∧
    evaluate [number 7, unrecognized "or", number 2] = .error .unsupportedOperator ∧
    validate [number 5, number 3, operator .plus, number 1] = .error .invalidSyntax := by
  have hshort : StopsShort [number 5, operator .divided] := ⟨⟨5, rfl⟩, 5, rfl⟩
  obtain ⟨hzero, -⟩ := faults_are_final [number 1, operator .divided, number 0]
  obtain ⟨-, hsyntax, -⟩ := faults_are_final [number 5, operator .divided]
  obtain ⟨-, -, hword, -⟩ := faults_are_final [number 7, unrecognized "or"]
  obtain ⟨-, -, -, hsecond⟩ := faults_are_final [number 5, number 3]
  obtain ⟨hall, hmended⟩ := hsyntax rfl
  refine ⟨hzero _ (.inl rfl) (by decide) [operator .plus, number 1], hshort, ?_, hmended hshort 0,
    hword 7 rfl ⟨"or", rfl⟩ (number 2) [], hsecond _ (.inl rfl) rfl [operator .plus, number 1]⟩
  intro h
  exact hall.1 h hshort

end PhraseArithmetic.Token
