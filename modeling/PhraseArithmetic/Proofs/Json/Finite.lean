import Mathlib.Tactic.GCongr
import Mathlib.Tactic.Linarith
import Mathlib.Tactic.Positivity
import Mathlib.Tactic.Ring
import PhraseArithmetic.Json.Magnitude
import PhraseArithmetic.Proofs.Json.Grammar

/-!
# Numerals with a finite double

A numeral is read as a significand below 2^64 and a power of ten, and its double is the rounded
product of the two after each is rounded. What is dropped from the numeral makes the product
smaller, and a rounding makes it larger by at most one part in 2^53. So no numeral is lost but in
the last few steps below the largest double.
-/
namespace PhraseArithmetic.Json

/-! ### The parts of a numeral -/

namespace Numeral
variable (n : Numeral)

theorem dropWhile_minus_text :
    n.text.dropWhile (· == '-') = n.whole ++ (n.fractionText ++ n.exponentText) := by
  obtain ⟨hne, hdigits⟩ := n.isWhole
  obtain ⟨d, digits, hw⟩ := List.exists_cons_of_ne_nil hne
  have hd : d ≠ '-' := by
    rintro rfl
    rw [hw, List.forall_mem_cons] at hdigits
    exact absurd hdigits.1 (by decide)
  cases hs : n.negative <;> simp [text, sign, hs, hw, hd]

theorem span_exponentText :
    n.exponentText.takeWhile Char.isDigit = [] ∧
      n.exponentText.dropWhile Char.isDigit = n.exponentText := by
  cases he : n.exponent with
  | none => simp [exponentText, he]
  | some e => rcases e.isMark with h | h <;> simp [exponentText, he, Exponent.text, h]

theorem span_fractionText :
    (n.fractionText ++ n.exponentText).takeWhile Char.isDigit = [] ∧
      (n.fractionText ++ n.exponentText).dropWhile Char.isDigit =
        n.fractionText ++ n.exponentText := by
  cases hf : n.fraction with
  | none => simpa [fractionText, hf] using n.span_exponentText
  | some digits => simp [fractionText, hf]

theorem integer?_exponent (e : Exponent) : Text.integer? (e.sign ++ e.digits) = some e.value := by
  have hdigits := e.isDigits.natural?_eq
  rcases e.isSign with h | h | h
  · rw [h, List.nil_append]
    unfold Text.integer?
    split
    · exact absurd (e.isDigits.2 '+' (by simp [*])) (by decide)
    · exact absurd (e.isDigits.2 '-' (by simp [*])) (by decide)
    · simp [hdigits, Exponent.value, h]
  · simp [h, Text.integer?, hdigits, Exponent.value]
  · simp [h, Text.integer?, hdigits, Exponent.value]

theorem span_digits {digits : List Char} (h : IsDigits digits) (rest : List Char) :
    (digits ++ rest).takeWhile Char.isDigit = digits ++ rest.takeWhile Char.isDigit ∧
      (digits ++ rest).dropWhile Char.isDigit = rest.dropWhile Char.isDigit :=
  ⟨List.takeWhile_append_of_pos h.2, List.dropWhile_append_of_pos h.2⟩

theorem parts_ofText :
    Parts.ofText n.text = ⟨n.whole, n.fractionDigits, n.exponent.elim 0 Exponent.value⟩ := by
  unfold Parts.ofText
  simp only [dropWhile_minus_text, span_digits n.isWhole, span_fractionText, List.append_nil]
  cases hf : n.fraction with
  | none =>
    have hnone : n.fractionText = [] := by simp [fractionText, hf]
    have hdigits : n.fractionDigits = [] := by simp [fractionDigits, hf]
    simp only [hnone, hdigits, List.nil_append]
    cases he : n.exponent with
    | none => simp [exponentText, he]
    | some e =>
      have hexponent := integer?_exponent e
      rcases e.isMark with h | h <;> simp [exponentText, he, Exponent.text, h, hexponent]
  | some digits =>
    have hpoint : n.fractionText = '.' :: digits := by simp [fractionText, hf]
    have hdigits : n.fractionDigits = digits := by simp [fractionDigits, hf]
    simp only [hpoint, hdigits, List.cons_append, List.span_eq_takeWhile_dropWhile,
      span_digits (n.isFraction digits hf), span_exponentText, List.append_nil]
    cases he : n.exponent with
    | none => simp [exponentText, he]
    | some e =>
      have hexponent := integer?_exponent e
      simp [exponentText, he, Exponent.text, hexponent]

end Numeral

/-! ### What is dropped -/

theorem mul_pow_le_ofDigitChars (s : ℕ) (digits : List Char) :
    s * 10 ^ digits.length ≤ Nat.ofDigitChars 10 digits s := by
  induction digits generalizing s with
  | nil => simp
  | cons d digits ih =>
    rw [Nat.ofDigitChars_cons, List.length_cons]
    calc s * 10 ^ (digits.length + 1) = 10 * s * 10 ^ digits.length := by ring
      _ ≤ (10 * s + (d.toNat - '0'.toNat)) * 10 ^ digits.length := by gcongr; omega
      _ ≤ _ := ih _

/-- Digits are taken as long as the significand fits, and the first that is left would not. -/
theorem exists_taken (s : ℕ) (digits : List Char) :
    ∃ taken, digits = taken ++ (takeFitting s digits).2 ∧
      (takeFitting s digits).1 = Nat.ofDigitChars 10 taken s ∧
      (taken ≠ [] → (takeFitting s digits).1 < UInt64.size) ∧
      ∀ d left, (takeFitting s digits).2 = d :: left →
        UInt64.size ≤ 10 * (takeFitting s digits).1 + (d.toNat - '0'.toNat) := by
  induction digits generalizing s with
  | nil => exact ⟨[], rfl, rfl, by simp, by simp [takeFitting]⟩
  | cons d digits ih =>
    by_cases h : s * 10 + (d.toNat - '0'.toNat) < UInt64.size
    · have htake : takeFitting s (d :: digits) =
          takeFitting (s * 10 + (d.toNat - '0'.toNat)) digits := by
        rw [takeFitting, if_pos h]
      obtain ⟨taken, hdigits, hvalue, hfits, hleft⟩ := ih (s * 10 + (d.toNat - '0'.toNat))
      rw [htake]
      refine ⟨d :: taken, by rw [List.cons_append, ← hdigits], ?_, fun _ => ?_, hleft⟩
      · rw [hvalue, Nat.ofDigitChars_cons, Nat.mul_comm]
      · cases taken with
        | nil => rwa [hvalue]
        | cons c taken => exact hfits (by simp)
    · have htake : takeFitting s (d :: digits) = (s, d :: digits) := by
        rw [takeFitting, if_neg h]
      rw [htake]
      refine ⟨[], rfl, rfl, by simp, ?_⟩
      intro d' left hd
      obtain ⟨rfl, -⟩ := List.cons.inj hd
      omega

/-- What is taken is scaled by one power of ten for each digit that is not. A digit that is taken
behind the point in the place of one dropped before it only makes the number smaller. -/
theorem taken_mul_pow_le {s left : ℕ} {dropped taken unread : List Char}
    (hdropped : ∀ d ds, dropped = d :: ds → UInt64.size ≤ 10 * s + (d.toNat - '0'.toNat))
    (hleft : left = Nat.ofDigitChars 10 taken s) (hfits : taken ≠ [] → left < UInt64.size) :
    left * 10 ^ (dropped.length + unread.length) ≤
      Nat.ofDigitChars 10 (dropped ++ (taken ++ unread)) s := by
  rw [Nat.ofDigitChars_append]
  cases dropped with
  | nil =>
    have htaken : Nat.ofDigitChars 10 (taken ++ unread) s = Nat.ofDigitChars 10 unread left := by
      rw [Nat.ofDigitChars_append, hleft]
    rw [Nat.ofDigitChars_nil, htaken, List.length_nil, Nat.zero_add]
    exact mul_pow_le_ofDigitChars left unread
  | cons d ds =>
    cases taken with
    | nil =>
      have hsame : left = s := hleft
      calc left * 10 ^ ((d :: ds).length + unread.length)
          = s * 10 ^ (d :: ds).length * 10 ^ unread.length := by rw [hsame, pow_add, mul_assoc]
        _ ≤ Nat.ofDigitChars 10 (d :: ds) s * 10 ^ unread.length :=
          Nat.mul_le_mul_right _ (mul_pow_le_ofDigitChars s (d :: ds))
        _ ≤ _ := mul_pow_le_ofDigitChars _ unread
    | cons c taken =>
      -- what is left fits, and with the first dropped digit it would not
      have hle : left ≤ 10 * s + (d.toNat - '0'.toNat) :=
        (hfits (by simp)).le.trans (hdropped d ds rfl)
      calc left * 10 ^ ((d :: ds).length + unread.length)
          ≤ left * 10 ^ (ds.length + (c :: taken ++ unread).length) := by
            refine Nat.mul_le_mul_left left (Nat.pow_le_pow_right (by decide) ?_)
            simp only [List.length_cons, List.length_append]
            omega
        _ = left * 10 ^ ds.length * 10 ^ (c :: taken ++ unread).length := by
            rw [pow_add, mul_assoc]
        _ ≤ Nat.ofDigitChars 10 (d :: ds) s * 10 ^ (c :: taken ++ unread).length := by
            gcongr
            exact (Nat.mul_le_mul_right _ hle).trans (mul_pow_le_ofDigitChars _ ds)
        _ ≤ _ := mul_pow_le_ofDigitChars _ (c :: taken ++ unread)

/-- The significand with its power of ten is at most the number that the digits spell. -/
theorem Parts.scaled_le (p : Parts) :
    ∃ m : ℕ, p.scaled.1 * 10 ^ m ≤ Nat.ofDigitChars 10 (p.whole ++ p.fraction) 0 ∧
      p.scaled.2 = p.exponent - p.fraction.length + m := by
  obtain ⟨front, hwhole, hs, -, hdropped⟩ := exists_taken 0 p.whole
  obtain ⟨taken, hfraction, hleft, hfits, -⟩ := exists_taken (takeFitting 0 p.whole).1 p.fraction
  refine ⟨(takeFitting 0 p.whole).2.length +
    (takeFitting (takeFitting 0 p.whole).1 p.fraction).2.length, ?_, ?_⟩
  · have hdigits : Nat.ofDigitChars 10 (p.whole ++ p.fraction) 0 =
        Nat.ofDigitChars 10 ((takeFitting 0 p.whole).2 ++ (taken ++
          (takeFitting (takeFitting 0 p.whole).1 p.fraction).2)) (takeFitting 0 p.whole).1 := by
      rw [← hfraction, hs, ← Nat.ofDigitChars_append, ← List.append_assoc, ← hwhole]
    rw [hdigits]
    exact taken_mul_pow_le hdropped hleft hfits
  · have hlength := congrArg List.length hfraction
    rw [List.length_append] at hlength
    simp only [Parts.scaled]
    omega

/-! ### What rounding adds -/

/-- Where nothing is rounded the step is one, and elsewhere it is within one part in 2^52. -/
theorem step_mul_le {n : ℕ} (h : n.log2 + 1 - 53 ≠ 0) : 2 ^ (n.log2 + 1 - 53) * 2 ^ 52 ≤ n := by
  have hn : n ≠ 0 := by
    rintro rfl
    simp at h
  calc 2 ^ (n.log2 + 1 - 53) * 2 ^ 52 = 2 ^ n.log2 := by
        rw [← pow_add]
        congr 1
        omega
    _ ≤ n := Nat.log2_self_le hn

theorem roundToDouble_le (n : ℕ) : roundToDouble n * 2 ^ 53 ≤ n * (2 ^ 53 + 1) := by
  have hdiv := Nat.div_add_mod n (2 ^ (n.log2 + 1 - 53))
  unfold roundToDouble
  simp only [Nat.pow_eq]
  by_cases h : n.log2 + 1 - 53 = 0
  · simp only [h, pow_zero, Nat.div_one, Nat.mod_one]
    split <;> omega
  · have hstep := step_mul_le h
    generalize 2 ^ (n.log2 + 1 - 53) = step at *
    split
    · next hup =>
      have hhalf : step ≤ 2 * (n % step) := by omega
      have hquotient : (n / step + 1) * step = step * (n / step) + step := by ring
      rw [hquotient]
      linarith
    · have hquotient : n / step * step ≤ n := Nat.div_mul_le_self n step
      linarith

/-! ### Numerals that are never lost -/

theorem Numeral.scaled_mul_le {n : Numeral} {bound power : ℕ} (h : n.IsAtMost bound)
    (hpower : (Parts.ofText n.text).scaled.2 = power) :
    (Parts.ofText n.text).scaled.1 * 10 ^ power ≤ bound := by
  obtain ⟨m, hm, hscale⟩ := (Parts.ofText n.text).scaled_le
  have hmagnitude : n.significand * 10 ^ n.scale.toNat ≤ bound * 10 ^ (-n.scale).toNat := h
  have hm : (Parts.ofText n.text).scaled.1 * 10 ^ m ≤ n.significand := by
    rwa [n.parts_ofText] at hm ⊢
  have hpower : n.scale + m = power := by
    rw [hpower, n.parts_ofText] at hscale
    exact hscale.symm
  generalize (Parts.ofText n.text).scaled.1 = s at *
  rcases Nat.le_total m power with hle | hle
  · have hup : n.scale.toNat = power - m := by omega
    have hdown : (-n.scale).toNat = 0 := by omega
    rw [hup, hdown, pow_zero, mul_one] at hmagnitude
    calc s * 10 ^ power = s * 10 ^ m * 10 ^ (power - m) := by
          rw [mul_assoc, ← pow_add, Nat.add_sub_cancel' hle]
      _ ≤ n.significand * 10 ^ (power - m) := Nat.mul_le_mul_right _ hm
      _ ≤ bound := hmagnitude
  · have hup : n.scale.toNat = 0 := by omega
    have hdown : (-n.scale).toNat = m - power := by omega
    rw [hup, hdown, pow_zero, mul_one] at hmagnitude
    have hmul : s * 10 ^ power * 10 ^ (m - power) ≤ bound * 10 ^ (m - power) := by
      rw [mul_assoc, ← pow_add, Nat.add_sub_cancel' hle]
      exact hm.trans hmagnitude
    exact Nat.le_of_mul_le_mul_right hmul (by positivity)

/-- The largest finite number in double precision. -/
def largestDouble : ℕ := Nat.pow 2 1024 - Nat.pow 2 971

/-- The largest double less three units in its last place. -/
def safeBound : ℕ := Nat.pow 2 1024 - Nat.pow 2 973

theorem roundToDouble_mul_lt {a b : ℕ} (h : a * b ≤ safeBound) :
    roundToDouble a * roundToDouble b < Text.infinityBound := by
  have hrounded : roundToDouble a * 2 ^ 53 * (roundToDouble b * 2 ^ 53) ≤
      a * (2 ^ 53 + 1) * (b * (2 ^ 53 + 1)) :=
    Nat.mul_le_mul (roundToDouble_le a) (roundToDouble_le b)
  have hbound : safeBound * ((2 ^ 53 + 1) * (2 ^ 53 + 1)) <
      Text.infinityBound * (2 ^ 53 * 2 ^ 53) := by decide +kernel
  refine Nat.lt_of_mul_lt_mul_right (a := 2 ^ 53 * 2 ^ 53) ?_
  calc roundToDouble a * roundToDouble b * (2 ^ 53 * 2 ^ 53)
      = roundToDouble a * 2 ^ 53 * (roundToDouble b * 2 ^ 53) := by ring
    _ ≤ a * (2 ^ 53 + 1) * (b * (2 ^ 53 + 1)) := hrounded
    _ = a * b * ((2 ^ 53 + 1) * (2 ^ 53 + 1)) := by ring
    _ ≤ safeBound * ((2 ^ 53 + 1) * (2 ^ 53 + 1)) := Nat.mul_le_mul_right _ h
    _ < _ := hbound

theorem power_lt {s power bound k : ℕ} (hs : s ≠ 0) (h : s * 10 ^ power ≤ bound)
    (hbound : bound < Nat.pow 10 k) : power < k := by
  have hpow : 10 ^ power < 10 ^ k :=
    calc 10 ^ power ≤ s * 10 ^ power := Nat.le_mul_of_pos_left _ (Nat.pos_of_ne_zero hs)
      _ ≤ bound := h
      _ < 10 ^ k := hbound
  exact (Nat.pow_lt_pow_iff_right (by decide)).1 hpow

theorem Numeral.inDoubleRange_of_isAtMost {n : Numeral} (h : n.IsAtMost safeBound) :
    inDoubleRange n.text = true := by
  simp only [inDoubleRange, Bool.or_eq_true, Bool.and_eq_true, decide_eq_true_eq]
  by_cases hzero : (Parts.ofText n.text).scaled.1 = 0
  · exact .inl (.inl hzero)
  by_cases hnegative : (Parts.ofText n.text).scaled.2 < 0
  · exact .inl (.inr hnegative)
  obtain ⟨power, hpower⟩ := Int.eq_ofNat_of_zero_le (Int.not_lt.1 hnegative)
  have hle := scaled_mul_le h hpower
  have hsmall : power < 309 := power_lt hzero hle (by decide +kernel)
  rw [hpower]
  exact .inr ⟨by omega, roundToDouble_mul_lt hle⟩

end PhraseArithmetic.Json
