/-!
# Decimal numerals

Reading and writing whole numbers in base ten. A sign is optional and single, leading zeros are
free, and a value outside the wanted range is no numeral of that range.
-/
namespace PhraseArithmetic.Text

/-- The number that one or more decimal digits spell. -/
def natural? (digits : List Char) : Option Nat :=
  if digits ≠ [] ∧ digits.all Char.isDigit then some (Nat.ofDigitChars 10 digits 0) else none

def integer? : List Char → Option Int
  | '+' :: digits => (natural? digits).map Int.ofNat
  | '-' :: digits => (natural? digits).map fun n => -Int.ofNat n
  | digits => (natural? digits).map Int.ofNat

/-- A signed numeral whose value lies in `[-2^63, 2^63)`. -/
def signed64? (text : List Char) : Option Int64 :=
  (integer? text).bind fun n =>
    if Int64.minValue.toInt ≤ n ∧ n ≤ Int64.maxValue.toInt then some (Int64.ofInt n) else none

/-- A numeral below `2 ^ bits`, with an optional plus sign. -/
def unsigned? (bits : Nat) (text : List Char) : Option Nat :=
  let digits := match text with
    | '+' :: rest => rest
    | _ => text
  (natural? digits).bind fun n => if n < Nat.pow 2 bits then some n else none

def naturalDigits (n : Nat) : List Char := Nat.toDigits 10 n

def integerDigits : Int → List Char
  | .ofNat n => naturalDigits n
  | .negSucc n => '-' :: naturalDigits (n + 1)

def decimal (n : Int) : String := String.ofList (integerDigits n)

theorem all_isDigit_naturalDigits (n : Nat) : (naturalDigits n).all Char.isDigit = true := by
  simp only [List.all_eq_true]
  exact fun c hc => Nat.isDigit_of_mem_toDigits (by decide) (by decide) hc

@[simp] theorem natural?_naturalDigits (n : Nat) : natural? (naturalDigits n) = some n := by
  rw [natural?, if_pos ⟨Nat.toDigits_ne_nil, all_isDigit_naturalDigits n⟩]
  exact congrArg some Nat.ofDigitChars_ten_toDigits

theorem integer?_integerDigits (n : Int) : integer? (integerDigits n) = some n := by
  cases n with
  | ofNat n =>
    have hd := natural?_naturalDigits n
    have ha := all_isDigit_naturalDigits n
    cases hds : naturalDigits n with
    | nil => exact absurd hds Nat.toDigits_ne_nil
    | cons c ds =>
      rw [hds, List.all_cons, Bool.and_eq_true] at ha
      have hp : c ≠ '+' := by rintro rfl; exact absurd ha.1 (by decide)
      have hm : c ≠ '-' := by rintro rfl; exact absurd ha.1 (by decide)
      simp only [integerDigits, hds] at hd ⊢
      unfold integer?
      split
      · next h => simp at h; exact absurd h.1 hp
      · next h => simp at h; exact absurd h.1 hm
      · rw [hd]; rfl
  | negSucc n =>
    simp only [integerDigits, integer?, natural?_naturalDigits]
    rfl

theorem integerDigits_ne_nil (n : Int) : integerDigits n ≠ [] := by
  cases n with
  | ofNat n => exact Nat.toDigits_ne_nil
  | negSucc n => simp [integerDigits]

theorem eq_minus_or_isDigit_of_mem_integerDigits {n : Int} {c : Char} (h : c ∈ integerDigits n) :
    c = '-' ∨ c.isDigit = true := by
  have hnatural (k : Nat) (hc : c ∈ naturalDigits k) : c.isDigit = true :=
    List.all_eq_true.1 (all_isDigit_naturalDigits k) c hc
  cases n with
  | ofNat n => exact .inr (hnatural n h)
  | negSucc n => exact (List.mem_cons.1 h).imp_right (hnatural (n + 1))

/-- Writing a 64-bit integer and reading it back gives the integer, at both ends too. -/
theorem signed64?_integerDigits (n : Int64) : signed64? (integerDigits n.toInt) = some n := by
  rw [signed64?, integer?_integerDigits, Option.bind_some, if_pos ⟨n.minValue_le_toInt, n.toInt_le⟩]
  simp

end PhraseArithmetic.Text
