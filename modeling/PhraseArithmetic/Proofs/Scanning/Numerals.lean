import Mathlib.Data.List.Induction
import PhraseArithmetic.Token

/-!
# Which words are numbers

A word is a number when it spells one that fits 64 bits: one or more decimal digits, any number of
them zeros in front, with at most one sign. Of the other words four are operators, and the rest are
kept as they are.
-/
namespace PhraseArithmetic
namespace Text

/-- Decimal digits and the number that they spell. -/
inductive SpellsNatural : List Char → Nat → Prop where
  | digit {d : Nat} (hd : d < 10) : SpellsNatural [d.digitChar] d
  | concat {text : List Char} {n d : Nat} (h : SpellsNatural text n) (hd : d < 10) :
      SpellsNatural (text ++ [d.digitChar]) (10 * n + d)

inductive SpellsInteger : List Char → Int → Prop where
  | unsigned {text : List Char} {n : Nat} (h : SpellsNatural text n) : SpellsInteger text n
  | plus {text : List Char} {n : Nat} (h : SpellsNatural text n) : SpellsInteger ('+' :: text) n
  | minus {text : List Char} {n : Nat} (h : SpellsNatural text n) : SpellsInteger ('-' :: text) (-n)

theorem exists_digitChar_of_isDigit {c : Char} (h : c.isDigit = true) :
    ∃ d, d < 10 ∧ c = d.digitChar := by
  have hrange : 48 ≤ c.toNat ∧ c.toNat ≤ 57 := by
    simpa [Char.isDigit, UInt32.le_iff_toNat_le] using h
  refine ⟨c.toNat - 48, by omega, Char.toNat_inj.1 ?_⟩
  rw [Nat.toNat_digitChar_of_lt_ten (by omega)]
  omega

theorem ofDigitChars_concat_digitChar (text : List Char) {d : Nat} (hd : d < 10) :
    Nat.ofDigitChars 10 (text ++ [d.digitChar]) 0 = 10 * Nat.ofDigitChars 10 text 0 + d := by
  have hvalue : d.digitChar.toNat - '0'.toNat = d := by
    rw [Nat.toNat_digitChar_of_lt_ten hd]
    exact Nat.add_sub_cancel_left 48 d
  rw [Nat.ofDigitChars_append, Nat.ofDigitChars_cons, hvalue]
  rfl

theorem natural?_eq_some_iff {text : List Char} {n : Nat} :
    natural? text = some n ↔
      text ≠ [] ∧ (∀ c ∈ text, c.isDigit = true) ∧ Nat.ofDigitChars 10 text 0 = n := by
  simp [natural?, and_assoc]

section
variable {text : List Char} {n : Nat} {z : Int}

theorem SpellsNatural.natural?_eq (h : SpellsNatural text n) : natural? text = some n := by
  rw [natural?_eq_some_iff]
  induction h with
  | digit hd => exact ⟨by simp, by simpa [Nat.isDigit_digitChar] using hd,
      by simpa using ofDigitChars_concat_digitChar [] hd⟩
  | @concat text n d _ hd ih =>
    obtain ⟨-, hdigits, hn⟩ := ih
    refine ⟨by simp, ?_, by rw [ofDigitChars_concat_digitChar text hd, hn]⟩
    intro c hc
    rcases List.mem_append.1 hc with hc | hc
    · exact hdigits c hc
    · rw [List.mem_singleton.1 hc, Nat.isDigit_digitChar]
      exact decide_eq_true hd

/-- Digits spell what they come to in base ten; the last digit is taken off first. -/
theorem spellsNatural_ofDigitChars (hne : text ≠ []) (h : ∀ c ∈ text, c.isDigit = true) :
    SpellsNatural text (Nat.ofDigitChars 10 text 0) := by
  induction text using List.reverseRecOn with
  | nil => exact absurd rfl hne
  | append_singleton text c ih =>
    obtain ⟨d, hd, rfl⟩ := exists_digitChar_of_isDigit (h c (by simp))
    rw [ofDigitChars_concat_digitChar text hd]
    rcases eq_or_ne text [] with rfl | htext
    · simpa using SpellsNatural.digit hd
    · exact .concat (ih htext fun e he => h e (by simp [he])) hd

theorem natural?_eq_some_iff_spells : natural? text = some n ↔ SpellsNatural text n := by
  constructor
  · intro h
    obtain ⟨hne, hdigits, rfl⟩ := natural?_eq_some_iff.1 h
    exact spellsNatural_ofDigitChars hne hdigits
  · exact SpellsNatural.natural?_eq

theorem SpellsNatural.head?_isDigit (h : SpellsNatural text n) {c : Char}
    (hc : text.head? = some c) : c.isDigit = true := by
  obtain ⟨-, hdigits, -⟩ := natural?_eq_some_iff.1 h.natural?_eq
  exact hdigits c (List.mem_of_mem_head? hc)

/-- A text without a sign is a numeral only by its digits. -/
theorem integer?_of_isDigit {c : Char} (hc : c.isDigit = true) (text : List Char) :
    integer? (c :: text) = (natural? (c :: text)).map Int.ofNat := by
  have hplus : c ≠ '+' := by
    rintro rfl
    exact absurd hc (by decide)
  have hminus : c ≠ '-' := by
    rintro rfl
    exact absurd hc (by decide)
  rw [integer?.eq_def]
  split
  · next h => exact absurd (List.cons.inj h).1 hplus
  · next h => exact absurd (List.cons.inj h).1 hminus
  · rfl

theorem SpellsInteger.integer?_eq (h : SpellsInteger text z) : integer? text = some z := by
  cases h with
  | @unsigned text n h =>
    cases text with
    | nil => exact absurd h.natural?_eq (by simp [natural?])
    | cons c text =>
      rw [integer?_of_isDigit (h.head?_isDigit rfl), h.natural?_eq]
      rfl
  | plus h =>
    rw [integer?, h.natural?_eq]
    rfl
  | minus h =>
    rw [integer?, h.natural?_eq]
    rfl

theorem spellsInteger_of_integer? (h : integer? text = some z) : SpellsInteger text z := by
  unfold integer? at h
  split at h <;> obtain ⟨n, hn, rfl⟩ := Option.map_eq_some_iff.1 h
  · exact .plus (natural?_eq_some_iff_spells.1 hn)
  · exact .minus (natural?_eq_some_iff_spells.1 hn)
  · exact .unsigned (natural?_eq_some_iff_spells.1 hn)

theorem SpellsInteger.unique {z' : Int} (h : SpellsInteger text z) (h' : SpellsInteger text z') :
    z = z' := by
  have heq := h.integer?_eq
  rw [h'.integer?_eq] at heq
  exact (Option.some.inj heq).symm

theorem signed64?_eq_some_iff_spells {n : Int64} :
    signed64? text = some n ↔ SpellsInteger text n.toInt := by
  constructor
  · intro h
    obtain ⟨z, hz, hn⟩ := Option.bind_eq_some_iff.1 h
    obtain ⟨⟨hmin, hmax⟩, hn⟩ := Option.ite_none_right_eq_some.1 hn
    obtain rfl := Option.some.inj hn
    rw [Int64.toInt_ofInt_of_le hmin (Int.lt_of_le_of_lt hmax (by decide))]
    exact spellsInteger_of_integer? hz
  · intro h
    rw [signed64?, h.integer?_eq, Option.bind_some, if_pos ⟨n.minValue_le_toInt, n.toInt_le⟩,
      Int64.ofInt_toInt]

end
end Text

namespace Token
variable {word : String}

theorem classify_eq_number_iff {n : Int64} :
    classify word = number n ↔ Text.SpellsInteger word.toList n.toInt := by
  rw [← Text.signed64?_eq_some_iff_spells]
  cases hn : Text.signed64? word.toList with
  | some m => simp [classify, hn]
  | none =>
    cases ho : Operator.ofWord? word <;> simp [classify, hn, ho]

theorem signed64?_word (o : Operator) : Text.signed64? o.word.toList = none := by
  cases o <;> decide

/-- No operator is spelled like a number, so the order of the two tests does not matter. -/
theorem classify_eq_operator_iff {o : Operator} : classify word = operator o ↔ word = o.word := by
  constructor
  · intro h
    cases hn : Text.signed64? word.toList with
    | some m => simp [classify, hn] at h
    | none =>
      cases ho : Operator.ofWord? word with
      | none => simp [classify, hn, ho] at h
      | some o' =>
        obtain rfl : o' = o := by simpa [classify, hn, ho] using h
        exact Operator.ofWord?_eq_some_iff.1 ho
  · rintro rfl
    simp [classify, signed64?_word]

theorem classify_eq_self (hnumber : ∀ n : Int64, ¬Text.SpellsInteger word.toList n.toInt)
    (hoperator : ∀ o : Operator, word ≠ o.word) : classify word = unrecognized word := by
  have hn : Text.signed64? word.toList = none :=
    Option.eq_none_iff_forall_ne_some.2 fun n hn =>
      hnumber n (Text.signed64?_eq_some_iff_spells.1 hn)
  have ho : Operator.ofWord? word = none :=
    Option.eq_none_iff_forall_ne_some.2 fun o ho => hoperator o (Operator.ofWord?_eq_some_iff.1 ho)
  simp [classify, hn, ho]

theorem classify_eq_unrecognized_iff {w : String} :
    classify word = unrecognized w ↔
      w = word ∧ (∀ n : Int64, ¬Text.SpellsInteger word.toList n.toInt) ∧
        ∀ o : Operator, word ≠ o.word := by
  constructor
  · intro h
    have hnumber (n : Int64) : ¬Text.SpellsInteger word.toList n.toInt := fun hn => by
      simp [classify_eq_number_iff.2 hn] at h
    have hoperator (o : Operator) : word ≠ o.word := fun ho => by
      simp [classify_eq_operator_iff.2 ho] at h
    rw [classify_eq_self hnumber hoperator] at h
    exact ⟨(unrecognized.inj h).symm, hnumber, hoperator⟩
  · rintro ⟨rfl, hnumber, hoperator⟩
    exact classify_eq_self hnumber hoperator

/-- A numeral out of range is a word like any other. -/
theorem classify_of_spellsInteger {z : Int} (h : Text.SpellsInteger word.toList z)
    (hrange : ¬(Int64.minValue.toInt ≤ z ∧ z ≤ Int64.maxValue.toInt)) :
    classify word = unrecognized word := by
  refine classify_eq_self (fun n hn => ?_) fun o ho => ?_
  · rw [h.unique hn] at hrange
    exact hrange ⟨n.minValue_le_toInt, n.toInt_le⟩
  · subst ho
    have hnone : Text.integer? o.word.toList = none := by cases o <;> decide
    simp [h.integer?_eq] at hnone

theorem isDigit_of_mem_spellsInteger {text : List Char} {z : Int} (h : Text.SpellsInteger text z)
    {c : Char} (hc : c ∈ text) : c = '+' ∨ c = '-' ∨ c.isDigit = true := by
  have hdigit {digits : List Char} {n : Nat} (hn : Text.SpellsNatural digits n)
      (hmem : c ∈ digits) : c.isDigit = true := by
    obtain ⟨-, hdigits, -⟩ := Text.natural?_eq_some_iff.1 hn.natural?_eq
    exact hdigits c hmem
  cases h with
  | unsigned h => exact .inr (.inr (hdigit h hc))
  | plus h => exact (List.mem_cons.1 hc).imp_right fun hmem => .inr (hdigit h hmem)
  | minus h => exact .inr ((List.mem_cons.1 hc).imp_right fun hmem => hdigit h hmem)

/-- A word is a number, an operator or neither by what it spells, and then nothing of it is changed.
A numeral that does not fit, a sign alone and a word with any other character are no numbers, and
every number is read from its decimal form. -/
theorem classify_exactly (word : String) :
    (∀ n : Int64, classify word = number n ↔ Text.SpellsInteger word.toList n.toInt) ∧
    (∀ o : Operator, classify word = operator o ↔
      (∀ n : Int64, ¬Text.SpellsInteger word.toList n.toInt) ∧ word = o.word) ∧
    (∀ w : String, classify word = unrecognized w ↔
      w = word ∧ (∀ n : Int64, ¬Text.SpellsInteger word.toList n.toInt) ∧
        ∀ o : Operator, word ≠ o.word) ∧
    (∀ z : Int, Text.SpellsInteger word.toList z →
      ¬(Int64.minValue.toInt ≤ z ∧ z ≤ Int64.maxValue.toInt) → classify word = unrecognized word) ∧
    (word = "+" ∨ word = "-" → classify word = unrecognized word) ∧
    (∀ c ∈ word.toList, c ≠ '+' → c ≠ '-' → c.isDigit = false →
      (classify word).isNumber = false) ∧
    ∀ n : Int64, classify (Text.decimal n.toInt) = number n := by
  refine ⟨fun n => classify_eq_number_iff, fun o => ⟨?_, ?_⟩,
    fun w => classify_eq_unrecognized_iff, fun z => classify_of_spellsInteger, ?_, ?_,
    classify_decimal⟩
  · intro h
    refine ⟨fun n hn => ?_, classify_eq_operator_iff.1 h⟩
    simp [classify_eq_number_iff.2 hn] at h
  · rintro ⟨-, h⟩
    exact classify_eq_operator_iff.2 h
  · rintro (rfl | rfl)
    · decide
    · decide
  · intro c hc hplus hminus hdigit
    cases hw : classify word with
    | number n =>
      rcases isDigit_of_mem_spellsInteger (classify_eq_number_iff.1 hw) hc with h | h | h
      · exact absurd h hplus
      · exact absurd h hminus
      · simp [h] at hdigit
    | operator o => rfl
    | unrecognized w => rfl

/-- Zeros in front are free, and the smallest number less one is none. -/
example :
    classify "-0000000000000000000009223372036854775808" = number Int64.minValue ∧
      classify "-9223372036854775809" = unrecognized "-9223372036854775809" := by
  decide +kernel

end Token
end PhraseArithmetic
