import PhraseArithmetic.Operator
import PhraseArithmetic.Text.Blank
import PhraseArithmetic.Text.Numeral

/-!
# Tokens of a phrase

A word is a number, an operator or unrecognized, decided by the word alone. The tokens of a phrase
are its classified words.
-/
namespace PhraseArithmetic

inductive Token where
  | number (value : Int64)
  | operator (op : Operator)
  | unrecognized (word : String)
  deriving DecidableEq, Repr

theorem Text.isBlank_eq_false_of_mem_integerDigits {n : Int} {c : Char}
    (h : c ∈ integerDigits n) : isBlank c = false := by
  rcases eq_minus_or_isDigit_of_mem_integerDigits h with rfl | hdigit
  · decide
  · have hrange : 48 ≤ c.toNat ∧ c.toNat ≤ 57 := by
      simpa [Char.isDigit, UInt32.le_iff_toNat_le] using hdigit
    simp [isBlank, blankRanges]
    omega

namespace Token

def isNumber : Token → Bool
  | number _ => true
  | _ => false

def classify (word : String) : Token :=
  match Text.signed64? word.toList with
  | some n => number n
  | none =>
    match Operator.ofWord? word with
    | some o => operator o
    | none => unrecognized word

def scan (phrase : String) : List Token :=
  (Text.words phrase.toList).map fun word => classify (String.ofList word)

@[simp] theorem classify_decimal (n : Int64) : classify (Text.decimal n.toInt) = number n := by
  simp [classify, Text.decimal, Text.signed64?_integerDigits]

/-- A blank is a seam: the tokens of both sides are found independently. -/
theorem scan_append_blank (a b : List Char) {c : Char} (hc : Text.isBlank c = true) :
    scan (String.ofList (a ++ c :: b)) = scan (String.ofList a) ++ scan (String.ofList b) := by
  simp [scan, Text.words_append_blank a b hc]

theorem scan_append_singleton_append (front back : String) {blank : Char}
    (hblank : Text.isBlank blank = true) :
    scan (front ++ String.singleton blank ++ back) = scan front ++ scan back := by
  have htext : front ++ String.singleton blank ++ back =
      String.ofList (front.toList ++ blank :: back.toList) := by
    apply String.toList_inj.1
    simp
  rw [htext, scan_append_blank _ _ hblank, String.ofList_toList, String.ofList_toList]

/-- A written number is one word, which reads as the number. -/
@[simp] theorem scan_decimal (n : Int64) : scan (Text.decimal n.toInt) = [number n] := by
  have hword : Text.words (Text.integerDigits n.toInt) = [Text.integerDigits n.toInt] :=
    Text.words_eq_singleton (Text.integerDigits_ne_nil _) fun c hc =>
      Text.isBlank_eq_false_of_mem_integerDigits hc
  have hclass : classify (String.ofList (Text.integerDigits n.toInt)) = number n :=
    classify_decimal n
  simp [scan, Text.decimal, hword, hclass]

end Token
end PhraseArithmetic
