import PhraseArithmetic.Json.Lexeme
import PhraseArithmetic.Json.Quoted
import PhraseArithmetic.Text.Numeral

/-!
# Written lexemes are read back

A written string is one lexeme that spells the string, and a written number before a delimiter is
one lexeme with its digits.
-/
namespace PhraseArithmetic.Json
open Lexer

/-- Inside a string that has spelled `reversed` so far. -/
def Lexer.State.inside (s : State) (reversed : List Char) : State :=
  s.goto (.string (.text reversed))

theorem Spelling.unit_of_lt {n : Nat} (h : n < 0xD800) (reversed : List Char) :
    (Spelling.text reversed).unit n = .text (Char.ofNat n :: reversed) := by
  have h1 : ¬ 0xD800 ≤ n := by omega
  have h2 : ¬ 0xDC00 ≤ n := by omega
  simp [unit, isHighSurrogate, isLowSurrogate, h1, h2]

theorem foldl_push_escaped (s : State) (reversed : List Char) (c : Char) :
    (Text.symbols (escaped c)).foldl State.push (s.inside reversed) =
      s.inside (c :: reversed) := by
  unfold escaped
  split
  all_goals try rfl
  next h1 h2 h3 h4 h5 h6 h7 =>
  split
  next hc =>
    have hlt : c.toNat < 32 := hc
    have hhigh : Text.hexValue? (c.toNat / 16).digitChar = some (c.toNat / 16) :=
      Text.hexValue?_digitChar (by omega)
    have hlow : Text.hexValue? (c.toNat % 16).digitChar = some (c.toNat % 16) :=
      Text.hexValue?_digitChar (by omega)
    have hzero : Text.hexValue? '0' = some 0 := by decide
    have hv : c.toNat / 16 * 16 + c.toNat % 16 = c.toNat := by omega
    have hu := Spelling.unit_of_lt (n := c.toNat) (by omega) reversed
    simp [Text.symbols, State.push, State.pushChar, State.inside, State.goto, hzero, hhigh, hlow,
      hv, hu]
  next hc =>
    simp [Text.symbols, State.push, State.pushChar, State.inside, State.goto, hc, Spelling.char]
    rw [if_neg h1, if_neg h2]

theorem foldl_push_flatMap_escaped (s : State) (reversed text : List Char) :
    (Text.symbols (text.flatMap escaped)).foldl State.push (s.inside reversed) =
      s.inside (text.reverse ++ reversed) := by
  induction text generalizing reversed with
  | nil => rfl
  | cons c text ih =>
    have h := foldl_push_escaped s reversed c
    simp only [Text.symbols] at ih h
    simp [Text.symbols, List.foldl_append, h, ih]

/-- Between two lexemes a written string is read as itself, whatever characters it has. -/
theorem foldl_push_quoted {s : State} (h : s.mode = .between) (text : String) :
    (Text.symbols (quoted text)).foldl State.push s = s.emit (.string (some text)) := by
  have hopen : s.push (some '"') = s.inside [] := by simp [State.push, State.pushChar, h]; rfl
  have hbody := foldl_push_flatMap_escaped s [] text.toList
  simp only [Text.symbols] at hbody
  simp [quoted, Text.symbols, hopen, List.foldl_append, hbody]
  simp [State.push, State.pushChar, State.inside, State.goto, State.emit, Spelling.close]

/-- A character that ends every numeral. -/
def IsDelimiter (c : Char) : Prop := c.isDigit = false ∧ c ≠ '.' ∧ c ≠ 'e' ∧ c ≠ 'E'

theorem foldl_push_digits (s : State) {digits : List Char} (h : digits.all Char.isDigit = true)
    (reversed : List Char) :
    (Text.symbols digits).foldl State.push (s.goto (.number .whole reversed)) =
      s.goto (.number .whole (digits.reverse ++ reversed)) := by
  induction digits generalizing reversed with
  | nil => rfl
  | cons d digits ih =>
    rw [List.all_cons, Bool.and_eq_true] at h
    have ih := ih h.2 (d :: reversed)
    simp only [Text.symbols] at ih
    have hd : (s.goto (.number .whole reversed)).push (some d) =
        s.goto (.number .whole (d :: reversed)) := by
      simp [State.push, State.pushChar, State.goto, NumberPhase.advance, NumberPhase.next?, h.1]
    simp [Text.symbols, hd, ih]

theorem naturalDigits_eq_zero_or (n : Nat) :
    Text.naturalDigits n = ['0'] ∨
      ∃ d ds, Text.naturalDigits n = d :: ds ∧ d ≠ '0' := by
  induction n using Nat.strongRecOn with
  | _ n ih =>
    by_cases hn : n < 10
    · rw [Text.naturalDigits, Nat.toDigits_of_lt_base hn]
      have hall : ∀ k : Fin 10, [Nat.digitChar k] = ['0'] ∨ Nat.digitChar k ≠ '0' := by decide
      rcases hall ⟨n, hn⟩ with h | h
      · exact .inl h
      · exact .inr ⟨_, [], rfl, h⟩
    · rw [Text.naturalDigits, Nat.toDigits_of_base_le (by decide) (by omega)]
      rcases ih (n / 10) (by omega) with h | ⟨d, ds, h, hd⟩
      · have hv := congrArg (fun l => Nat.ofDigitChars 10 l 0) h
        simp only [Text.naturalDigits, Nat.ofDigitChars_ten_toDigits] at hv
        have : n / 10 = 0 := hv
        omega
      · exact .inr ⟨d, ds ++ [(n % 10).digitChar], by rw [Text.naturalDigits] at h; simp [h], hd⟩

theorem begin_digit {s : State} {d : Char} (h : d.isDigit = true) (hz : d ≠ '0') :
    s.begin d = s.goto (.number .whole [d]) := by
  have hn : ∀ c : Char, c.isDigit = false → d ≠ c := by rintro c hc rfl; simp [h] at hc
  have hs : isSpace d = false := by
    simp [isSpace, hn ' ' (by decide), hn '\t' (by decide), hn '\n' (by decide),
      hn '\r' (by decide)]
  unfold State.begin
  rw [if_neg (by simp [hs])]
  split
  all_goals try exact absurd rfl (hn _ (by decide))
  · exact absurd rfl hz
  · simp [h]

/-- Between two lexemes the digits of a number and a delimiter are read as the number and then
as the delimiter alone. -/
theorem foldl_push_naturalDigits {s : State} (h : s.mode = .between) (n : Nat) {c : Char}
    (hc : IsDelimiter c) :
    (Text.symbols (Text.naturalDigits n ++ [c])).foldl State.push s =
      (s.emit (.number (Text.naturalDigits n))).begin c := by
  obtain ⟨hdigit, hpoint, he, hE⟩ := hc
  rcases naturalDigits_eq_zero_or n with hz | ⟨d, ds, hds, hd⟩
  · have hopen : s.push (some '0') = s.goto (.number .zero ['0']) := by
      simp [State.push, State.pushChar, h]; rfl
    simp [hz, Text.symbols, hopen]
    simp [State.push, State.pushChar, State.goto, NumberPhase.advance, NumberPhase.next?,
      NumberPhase.isComplete, hdigit, hpoint, he, hE, State.emit]
  · have hall := Text.all_isDigit_naturalDigits n
    rw [hds, List.all_cons, Bool.and_eq_true] at hall
    have hopen : s.push (some d) = s.goto (.number .whole [d]) := by
      simp [State.push, State.pushChar, h, begin_digit hall.1 hd]
    have hrest := foldl_push_digits s hall.2 [d]
    simp only [Text.symbols] at hrest
    simp [hds, Text.symbols, hopen, List.foldl_append, hrest]
    simp [State.push, State.pushChar, State.goto, NumberPhase.advance, NumberPhase.next?,
      NumberPhase.isComplete, hdigit, hpoint, he, hE, State.emit]

end PhraseArithmetic.Json
