import PhraseArithmetic.Proofs.Validation.Agreement
import PhraseArithmetic.Service

/-!
# Evaluating in stages

A front that has a value and ends in a number can be put aside: with its value written in its place
the whole phrase has the same value, the same fault and the same verdict, whatever comes behind. On
texts the value is written in decimal, and a blank parts it from the rest.
-/
namespace PhraseArithmetic.Token

/-- A phrase ends in a number when its last token is one. -/
def EndsInNumber (tokens : List Token) : Prop := ∃ n, tokens.getLast? = some (number n)

section
variable {front : List Token} {value : Int64}

/-- Such a front is words without a number and a chain, and nothing else. -/
theorem exists_splits_nil_of_ok (h : evaluate front = .ok value) (hlast : EndsInNumber front) :
    ∃ before chain, Splits front before chain [] ∧ chain.value = value := by
  obtain ⟨before, chain, tail, hsplits, hending, hvalue⟩ := exists_splits_of_ok h
  cases hending with
  | nothing => exact ⟨before, chain, hsplits, hvalue⟩
  | word w =>
    obtain ⟨n, hn⟩ := hlast
    simp [hsplits.tokens_eq, List.getLast?_append] at hn

theorem evaluate_append_of_endsInNumber (h : evaluate front = .ok value)
    (hlast : EndsInNumber front) (back : List Token) :
    evaluate (front ++ back) = evaluate (number value :: back) := by
  obtain ⟨before, chain, hsplits, rfl⟩ := exists_splits_nil_of_ok h hlast
  rw [(hsplits.append back).evaluate_eq]
  rfl

theorem validate_append_of_endsInNumber (h : evaluate front = .ok value)
    (hlast : EndsInNumber front) (back : List Token) :
    validate (front ++ back) = validate (number value :: back) := by
  obtain ⟨before, chain, hsplits, rfl⟩ := exists_splits_nil_of_ok h hlast
  rw [(hsplits.append back).validate_eq]
  rfl

end

theorem judge_append_of_endsInNumber {front : String} {value : Int64}
    (h : evaluate (scan front) = .ok value) (hlast : EndsInNumber (scan front)) (back : String)
    {blank : Char} (hblank : Text.isBlank blank = true) (q : Inquiry) :
    q.judge (front ++ String.singleton blank ++ back) =
      q.judge (Text.decimal value.toInt ++ String.singleton blank ++ back) := by
  have hfront := scan_append_singleton_append front back hblank
  have hdecimal := scan_append_singleton_append (Text.decimal value.toInt) back hblank
  rw [scan_decimal, List.singleton_append] at hdecimal
  cases q with
  | value =>
    rw [Inquiry.judge, Inquiry.judge, hfront, hdecimal, evaluate_append_of_endsInNumber h hlast]
  | validity =>
    rw [Inquiry.judge, Inquiry.judge, hfront, hdecimal, validate_append_of_endsInNumber h hlast]

/-- A front with a value that ends in a number may be replaced by its value. So may the front of a
text, and what is then asked of the whole text has the same answer or the same fault, whatever has
been counted before. -/
theorem front_replaced_by_value :
    (∀ (front back : List Token) (value : Int64), evaluate front = .ok value →
      EndsInNumber front →
        evaluate (front ++ back) = evaluate (number value :: back) ∧
          validate (front ++ back) = validate (number value :: back)) ∧
    ∀ (front back : String) (blank : Char) (value : Int64), evaluate (scan front) = .ok value →
      EndsInNumber (scan front) → Text.isBlank blank = true → ∀ (q : Inquiry) (l l' : Ledger),
        (q.ask (front ++ String.singleton blank ++ back) l).result.mapError Failure.fault =
          (q.ask (Text.decimal value.toInt ++ String.singleton blank ++ back) l').result.mapError
            Failure.fault := by
  constructor
  · intro front back value h hlast
    exact ⟨evaluate_append_of_endsInNumber h hlast back,
      validate_append_of_endsInNumber h hlast back⟩
  · intro front back blank value h hlast hblank q l l'
    rw [q.mapError_fault_ask, q.mapError_fault_ask]
    exact judge_append_of_endsInNumber h hlast back hblank q

def largestPlusOne : String := "from 9223372036854775807 plus 1"

/-- A sum that wraps to the smallest number, with a division behind it. -/
theorem largestPlusOne_replaced :
    evaluate (scan largestPlusOne) = .ok Int64.minValue ∧ EndsInNumber (scan largestPlusOne) ∧
    evaluate (scan largestPlusOne ++ [operator .divided, number (-1), unrecognized "or"]) =
      evaluate [number Int64.minValue, operator .divided, number (-1), unrecognized "or"] ∧
    validate (scan largestPlusOne ++ [operator .divided, number (-1), unrecognized "or"]) =
      validate [number Int64.minValue, operator .divided, number (-1), unrecognized "or"] ∧
    ∀ (q : Inquiry) (l : Ledger),
      (q.ask (largestPlusOne ++ "\t" ++ "divided 0") l).result.mapError Failure.fault =
        (q.ask ("-9223372036854775808" ++ "\t" ++ "divided 0") l).result.mapError
          Failure.fault := by
  have hvalue : evaluate (scan largestPlusOne) = .ok Int64.minValue := by decide +kernel
  have hlast : EndsInNumber (scan largestPlusOne) := ⟨1, by decide +kernel⟩
  obtain ⟨htokens, htexts⟩ := front_replaced_by_value
  obtain ⟨hevaluate, hvalidate⟩ := htokens _ [operator .divided, number (-1), unrecognized "or"] _
    hvalue hlast
  exact ⟨hvalue, hlast, hevaluate, hvalidate, fun q l =>
    htexts largestPlusOne "divided 0" '\t' Int64.minValue hvalue hlast (by decide) q l l⟩

end PhraseArithmetic.Token
