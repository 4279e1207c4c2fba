import PhraseArithmetic.Proofs.Json.Cutting
import PhraseArithmetic.Proofs.Scanning.Numerals
import PhraseArithmetic.Proofs.Toml.Grammar

/-!
# Reading a spelled integer

An integer in any of its spellings is read as the number that it spells, up to what may stand
behind a value. It is no moment, although it may begin with the same digits.
-/
namespace PhraseArithmetic.Toml

/-- What may stand right behind a value. -/
def Closes (rest : List Char) : Prop :=
  ∀ c, rest.head? = some c → c ∈ [' ', '\t', '\n', '\r', '#', ',', ']']

theorem closes_nil : Closes [] := nofun

section
variable {rest : List Char}

/-- No character of the test stands right behind a value. -/
theorem Closes.head?_eq_false (h : Closes rest) {p : Char → Bool}
    (hp : ∀ c ∈ [' ', '\t', '\n', '\r', '#', ',', ']'], p c = false) (c : Char)
    (hc : rest.head? = some c) : p c = false := hp c (h c hc)

/-! ### Numbers -/

/-- A test for the digits of a base, and the value of digits in it. -/
structure ReadsBase (base : Nat) (p : Char → Bool) (value : List Char → Nat) : Prop where
  isDigit : ∀ {c : Char} {d : Nat}, Json.IsHexadecimal c d → d < base → p c = true
  value_nil : value [] = 0
  value_concat : ∀ {c : Char} {d : Nat} (digits : List Char), Json.IsHexadecimal c d → d < base →
    value (digits ++ [c]) = value digits * base + d
  stops : ∀ c ∈ [' ', '\t', '\n', '\r', '#', ',', ']'], p c = false

theorem readsBase_isDigitBelow (base : Nat) :
    ReadsBase base (isDigitBelow base) (valueInBase base) where
  isDigit hc hd := by simpa [isDigitBelow, Json.hexValue?_of_isHexadecimal hc] using hd
  value_nil := rfl
  value_concat digits hc _ := by simp [valueInBase, Json.hexValue?_of_isHexadecimal hc]
  stops := by simp [isDigitBelow, Text.hexValue?]

theorem eq_digitChar_of_isHexadecimal {c : Char} {d : Nat} (hc : Json.IsHexadecimal c d)
    (hd : d < 10) : c = d.digitChar := by
  have hupper : ∀ k : Fin 10, (Nat.digitChar k).toUpper = Nat.digitChar k := by decide
  rcases hc.2 with rfl | rfl
  · rfl
  · exact hupper ⟨d, hd⟩

theorem readsBase_decimal : ReadsBase 10 Char.isDigit (Nat.ofDigitChars 10 · 0) where
  isDigit hc hd := by
    rw [eq_digitChar_of_isHexadecimal hc hd, Nat.isDigit_digitChar]
    exact decide_eq_true hd
  value_nil := rfl
  value_concat digits hc hd := by
    rw [eq_digitChar_of_isHexadecimal hc hd, Text.ofDigitChars_concat_digitChar digits hd,
      Nat.mul_comm]
  stops := by simp [Char.isDigit]

theorem ne_underscore_of_isHexadecimal {c : Char} {d : Nat} (hc : Json.IsHexadecimal c d) :
    c ≠ '_' := by
  rintro rfl
  have hnone : Text.hexValue? '_' = none := rfl
  rw [Json.hexValue?_of_isHexadecimal hc] at hnone
  simp at hnone

section
variable {base n : Nat} {p : Char → Bool} {value : List Char → Nat} {text : List Char}

/-- Digits are read one by one, whatever stands behind them. -/
theorem SpellsDigits.exists_readDigits_eq (hb : ReadsBase base p value)
    (h : SpellsDigits base text n) :
    ∃ digits, value digits = n ∧
      ∀ rest, readDigits p (text ++ rest) = readMoreDigits p digits.reverse rest := by
  induction h with
  | @digit c d hc hd =>
    refine ⟨[c], ?_, fun rest => ?_⟩
    · simpa [hb.value_nil] using hb.value_concat [] hc hd
    · simp [readDigits, hb.isDigit hc hd]
  | @concat text n d c _ hc hd ih =>
    obtain ⟨digits, hvalue, hread⟩ := ih
    refine ⟨digits ++ [c], by rw [hb.value_concat digits hc hd, hvalue], fun rest => ?_⟩
    rw [List.append_assoc, List.singleton_append, hread,
      readMoreDigits_cons (ne_underscore_of_isHexadecimal hc), if_pos (hb.isDigit hc hd)]
    simp
  | @apart text n d c _ hc hd ih =>
    obtain ⟨digits, hvalue, hread⟩ := ih
    refine ⟨digits ++ [c], by rw [hb.value_concat digits hc hd, hvalue], fun rest => ?_⟩
    rw [List.append_assoc, hread]
    simp [readMoreDigits, hb.isDigit hc hd]

theorem readMoreDigits_of_closes (hb : ReadsBase base p value) (hrest : Closes rest)
    (reversed : List Char) : readMoreDigits p reversed rest = some (reversed.reverse, rest) := by
  cases rest with
  | nil => rfl
  | cons c rest =>
    have hc : c ≠ '_' := by
      rintro rfl
      exact absurd (hrest '_' rfl) (by decide)
    rw [readMoreDigits_cons hc, hrest.head?_eq_false hb.stops c rfl]
    rfl

theorem SpellsDigits.readDigits_eq (hb : ReadsBase base p value) (h : SpellsDigits base text n)
    (hrest : Closes rest) :
    ∃ digits, value digits = n ∧ readDigits p (text ++ rest) = some (digits, rest) := by
  obtain ⟨digits, hvalue, hread⟩ := h.exists_readDigits_eq hb
  exact ⟨digits, hvalue, by rw [hread, readMoreDigits_of_closes hb hrest, List.reverse_reverse]⟩

theorem integer?_of_lt (hn : n < integerBound) : integer? n = some (.integer n) := by
  have hbound : (integerBound : Int) = Int64.maxValue.toInt + 1 := by decide
  have hleast : Int64.minValue.toInt ≤ 0 := by decide
  rw [integer?, if_pos (by omega)]

theorem readBased_of_spells (h : SpellsDigits base text n) (hn : n < integerBound)
    (hrest : Closes rest) : readBased base (text ++ rest) = some (.integer n, rest) := by
  obtain ⟨digits, hvalue, hread⟩ := h.readDigits_eq (readsBase_isDigitBelow base) hrest
  simp [readBased, hread, hvalue, integer?_of_lt hn]

theorem SpellsDigits.exists_cons (h : SpellsDigits base text n) :
    ∃ c more d, text = c :: more ∧ Json.IsHexadecimal c d ∧ d < base := by
  induction h with
  | @digit c d hc hd => exact ⟨c, [], d, rfl, hc, hd⟩
  | concat _ _ _ ih =>
    obtain ⟨c, more, d, rfl, hc, hd⟩ := ih
    exact ⟨c, _, d, rfl, hc, hd⟩
  | apart _ _ _ ih =>
    obtain ⟨c, more, d, rfl, hc, hd⟩ := ih
    exact ⟨c, _, d, rfl, hc, hd⟩

theorem SpellsDecimal.exists_cons (h : SpellsDecimal text n) :
    ∃ c more, text = c :: more ∧ c.isDigit = true := by
  obtain ⟨c, more, d, rfl, hc, hd⟩ := h.digits.exists_cons
  exact ⟨c, more, rfl, readsBase_decimal.isDigit hc hd⟩

theorem SpellsDecimal.readWhole_eq (h : SpellsDecimal text n) (hrest : Closes rest) :
    ∃ digits, Nat.ofDigitChars 10 digits 0 = n ∧
      readWhole (text ++ rest) = some (digits, rest) := by
  by_cases hzero : text.head? = some '0'
  · obtain rfl := h.noLeadingZero hzero
    obtain ⟨digits, hvalue, hread⟩ := h.digits.readDigits_eq readsBase_decimal closes_nil
    obtain rfl : ['0'] = digits := congrArg Prod.fst (Option.some.inj hread)
    exact ⟨['0'], hvalue, rfl⟩
  · obtain ⟨digits, hvalue, hread⟩ := h.digits.readDigits_eq readsBase_decimal hrest
    refine ⟨digits, hvalue, ?_⟩
    obtain ⟨c, more, rfl, -⟩ := h.exists_cons
    have hc : c ≠ '0' := by simpa using hzero
    rw [← hread]
    simp [readWhole, hc]

theorem readDecimal_of_readWhole {digits : List Char} (negative : Bool)
    (h : readWhole text = some (digits, rest)) (hrest : Closes rest) :
    readDecimal negative text =
      (integer? (if negative then -(Nat.ofDigitChars 10 digits 0 : Int)
        else Nat.ofDigitChars 10 digits 0)).map (·, rest) := by
  rw [readDecimal, h]
  cases rest with
  | nil => simp [Option.map_eq_bind]
  | cons c rest =>
    have hpoint : c ≠ '.' := by
      rintro rfl
      exact absurd (hrest '.' rfl) (by decide)
    have hmark : isExponentMark c = false :=
      hrest.head?_eq_false (by simp [isExponentMark]) c rfl
    simp [hmark, Option.map_eq_bind]

theorem readSigned_of_digit {c : Char} {negative : Bool}
    (h : splitSign text = (negative, c :: rest)) (hc : c.isDigit = true) :
    readSigned text = readDecimal negative (c :: rest) := by
  have hletters : c ≠ 'i' ∧ c ≠ 'n' := by
    constructor <;> rintro rfl <;> exact absurd hc (by decide)
  simp [readSigned, h, hletters]

theorem splitSign_of_digit {c : Char} (hc : c.isDigit = true) (more : List Char) :
    splitSign (c :: more) = (false, c :: more) := by
  have hsigns : c ≠ '+' ∧ c ≠ '-' := by
    constructor <;> rintro rfl <;> exact absurd hc (by decide)
  simp [splitSign, hsigns]

/-- Decimal digits behind at most one sign are read as a number in base ten. -/
theorem SpellsDecimal.readSigned_eq (h : SpellsDecimal text n) (hn : n < integerBound)
    (hrest : Closes rest) {signed : List Char} (hsign : splitSign signed = (false, text ++ rest)) :
    readSigned signed = some (.integer n, rest) := by
  obtain ⟨digits, hvalue, hread⟩ := h.readWhole_eq hrest
  obtain ⟨c, more, rfl, hc⟩ := h.exists_cons
  rw [readSigned_of_digit hsign hc]
  refine (readDecimal_of_readWhole false hread hrest).trans ?_
  simp [hvalue, integer?_of_lt hn]

/-- A zero that stands alone has no mark of a base behind it. -/
theorem SpellsDecimal.no_mark (h : SpellsDecimal text n) (hrest : Closes rest) (mark : Char)
    (more : List Char) (heq : text ++ rest = '0' :: mark :: more) :
    mark ≠ 'x' ∧ mark ≠ 'o' ∧ mark ≠ 'b' := by
  obtain ⟨c, more', rfl, -⟩ := h.exists_cons
  obtain ⟨rfl, htail⟩ := List.cons.inj heq
  obtain ⟨-, rfl⟩ := List.cons.inj (h.noLeadingZero rfl)
  have hhead : rest = mark :: more := htail
  have hmark := hrest mark (by rw [hhead]; rfl)
  refine ⟨?_, ?_, ?_⟩ <;> rintro rfl <;> exact absurd hmark (by decide)

theorem readNumber_of_spells (h : SpellsInteger text n) (hn : n < integerBound)
    (hrest : Closes rest) : readNumber (text ++ rest) = some (.integer n, rest) := by
  cases h with
  | unsigned h =>
    rw [readNumber_eq_readSigned (h.no_mark hrest)]
    obtain ⟨c, more, rfl, hc⟩ := h.exists_cons
    exact h.readSigned_eq hn hrest (splitSign_of_digit hc _)
  | plus h =>
    rw [List.cons_append, readNumber_eq_readSigned (by simp)]
    exact h.readSigned_eq hn hrest rfl
  | minusZero =>
    rw [List.cons_append, readNumber_eq_readSigned (by simp), readSigned_of_digit rfl rfl,
      readDecimal_of_readWhole true rfl hrest]
    rfl
  | hexadecimal h => exact readBased_of_spells h hn hrest
  | octal h => exact readBased_of_spells h hn hrest
  | binary h => exact readBased_of_spells h hn hrest

/-! ### No moments -/

theorem isDigit_of_digit? {c : Char} {n : Nat} (h : digit? c = some n) : c.isDigit = true :=
  (Option.ite_none_right_eq_some.1 h).1

theorem eq_cons_of_after? {c : Char} {rest : List Char} (h : after? c text = some rest) :
    text = c :: rest := by
  cases text with
  | nil => simp [after?] at h
  | cons d text =>
    obtain ⟨rfl, heq⟩ := Option.ite_none_right_eq_some.1 h
    rw [Option.some.inj heq]

theorem exists_of_readTwoDigits {least most n : Nat} {rest : List Char}
    (h : readTwoDigits least most text = some (n, rest)) :
    ∃ a b, text = a :: b :: rest ∧ a.isDigit = true ∧ b.isDigit = true := by
  rcases text with - | ⟨a, - | ⟨b, text⟩⟩
  · simp [readTwoDigits] at h
  · simp [readTwoDigits] at h
  · obtain ⟨x, hx, h⟩ := Option.bind_eq_some_iff.1 h
    obtain ⟨y, hy, h⟩ := Option.bind_eq_some_iff.1 h
    obtain ⟨-, heq⟩ := Option.ite_none_right_eq_some.1 h
    obtain ⟨-, rfl⟩ := Prod.mk.inj (Option.some.inj heq)
    exact ⟨a, b, rfl, isDigit_of_digit? hx, isDigit_of_digit? hy⟩

theorem exists_of_readYear {n : Nat} {rest : List Char} (h : readYear text = some (n, rest)) :
    ∃ a b c d, text = a :: b :: c :: d :: rest ∧ a.isDigit = true ∧ b.isDigit = true ∧
      c.isDigit = true ∧ d.isDigit = true := by
  unfold readYear at h
  split at h
  · next a b c d more =>
    obtain ⟨w, hw, h⟩ := Option.bind_eq_some_iff.1 h
    obtain ⟨x, hx, h⟩ := Option.bind_eq_some_iff.1 h
    obtain ⟨y, hy, h⟩ := Option.bind_eq_some_iff.1 h
    obtain ⟨z, hz, h⟩ := Option.bind_eq_some_iff.1 h
    obtain ⟨-, rfl⟩ := Prod.mk.inj (Option.some.inj h)
    exact ⟨a, b, c, d, rfl, isDigit_of_digit? hw, isDigit_of_digit? hx, isDigit_of_digit? hy,
      isDigit_of_digit? hz⟩
  · simp at h

/-- A moment begins with digits that have a minus or a colon right behind them. -/
theorem exists_of_afterMoment? {rest : List Char} (h : afterMoment? text = some rest) :
    (∃ c, text.head? = some c ∧ c.isDigit = true) ∧
      ((text.dropWhile Char.isDigit).head? = some '-' ∨
        (text.dropWhile Char.isDigit).head? = some ':') := by
  cases hdate : afterDate? text with
  | some rest =>
    obtain ⟨⟨year, more⟩, hyear, hdate⟩ := Option.bind_eq_some_iff.1 hdate
    obtain ⟨more', hminus, -⟩ := Option.bind_eq_some_iff.1 hdate
    obtain ⟨a, b, c, d, rfl, ha, hb, hc, hd⟩ := exists_of_readYear hyear
    obtain rfl := eq_cons_of_after? hminus
    exact ⟨⟨a, rfl, ha⟩, .inl (by simp [ha, hb, hc, hd, show Char.isDigit '-' = false from rfl])⟩
  | none =>
    rw [afterMoment?, hdate] at h
    obtain ⟨more, hminute, -⟩ := Option.bind_eq_some_iff.1 h
    obtain ⟨⟨hour, more⟩, hhour, hminute⟩ := Option.bind_eq_some_iff.1 hminute
    obtain ⟨more', hcolon, -⟩ := Option.bind_eq_some_iff.1 hminute
    obtain ⟨a, b, rfl, ha, hb⟩ := exists_of_readTwoDigits hhour
    obtain rfl := eq_cons_of_after? hcolon
    exact ⟨⟨a, rfl, ha⟩, .inr (by simp [ha, hb, show Char.isDigit ':' = false from rfl])⟩

/-- Behind the first digits of a number stands an underscore, or what stands behind the number. -/
theorem SpellsDigits.head?_dropWhile (h : SpellsDigits 10 text n) (rest : List Char) :
    ((text ++ rest).dropWhile Char.isDigit).head? = some '_' ∨
      (text ++ rest).dropWhile Char.isDigit = rest.dropWhile Char.isDigit := by
  induction h generalizing rest with
  | digit hc hd => exact .inr (by simp [readsBase_decimal.isDigit hc hd])
  | @concat text n d c _ hc hd ih =>
    have hskip : (c :: rest).dropWhile Char.isDigit = rest.dropWhile Char.isDigit := by
      simp [readsBase_decimal.isDigit hc hd]
    simpa [hskip] using ih (c :: rest)
  | @apart text n d c _ _ _ ih =>
    have hstop : ('_' :: c :: rest).dropWhile Char.isDigit = '_' :: c :: rest := by
      simp [show Char.isDigit '_' = false from rfl]
    refine .inl ?_
    rcases ih ('_' :: c :: rest) with hhead | hdrop
    · simpa using hhead
    · simpa [hstop] using congrArg List.head? hdrop

theorem Closes.head?_dropWhile (hrest : Closes rest) :
    (rest.dropWhile Char.isDigit).head? ≠ some '-' ∧
      (rest.dropWhile Char.isDigit).head? ≠ some ':' := by
  cases rest with
  | nil => simp
  | cons d more =>
    have hd : d.isDigit = false := hrest.head?_eq_false readsBase_decimal.stops d rfl
    have hmark : d ≠ '-' ∧ d ≠ ':' := by
      constructor <;> rintro rfl <;> exact absurd (hrest _ rfl) (by decide)
    simpa [hd] using hmark

/-- What spells a number is no moment, and is not the beginning of one. -/
theorem afterMoment?_of_spells (h : SpellsInteger text n) (hrest : Closes rest) :
    afterMoment? (text ++ rest) = none := by
  by_contra hmoment
  obtain ⟨rest', hmoment⟩ := Option.ne_none_iff_exists'.1 hmoment
  obtain ⟨⟨c, hhead, hc⟩, hmark⟩ := exists_of_afterMoment? hmoment
  cases h with
  | unsigned h =>
    rcases h.digits.head?_dropWhile rest with hunderscore | hdrop
    · simp [hunderscore] at hmark
    · rw [hdrop] at hmark
      exact hmark.elim hrest.head?_dropWhile.1 hrest.head?_dropWhile.2
  | plus h =>
    obtain rfl : '+' = c := by simpa using hhead
    exact absurd hc (by decide)
  | minusZero =>
    obtain rfl : '-' = c := by simpa using hhead
    exact absurd hc (by decide)
  | hexadecimal h => simp [show Char.isDigit 'x' = false from rfl] at hmark
  | octal h => simp [show Char.isDigit 'o' = false from rfl] at hmark
  | binary h => simp [show Char.isDigit 'b' = false from rfl] at hmark

/-- A number begins with a digit or a sign. -/
theorem SpellsInteger.exists_cons (h : SpellsInteger text n) :
    ∃ c more, text = c :: more ∧ (c.isDigit = true ∨ c = '+' ∨ c = '-') := by
  cases h with
  | unsigned h =>
    obtain ⟨c, more, rfl, hc⟩ := h.exists_cons
    exact ⟨c, more, rfl, .inl hc⟩
  | plus h => exact ⟨'+', _, rfl, .inr (.inl rfl)⟩
  | minusZero => exact ⟨'-', _, rfl, .inr (.inr rfl)⟩
  | hexadecimal h => exact ⟨'0', _, rfl, .inl rfl⟩
  | octal h => exact ⟨'0', _, rfl, .inl rfl⟩
  | binary h => exact ⟨'0', _, rfl, .inl rfl⟩

end

end
end PhraseArithmetic.Toml
