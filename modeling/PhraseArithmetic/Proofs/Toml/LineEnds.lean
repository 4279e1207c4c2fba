import Mathlib.Data.Option.Basic
import Mathlib.Tactic.ByContra
import Mathlib.Tactic.Push
import PhraseArithmetic.Toml.Document

/-!
# Where a line ends

Most readers stop at a line end as they stop at the end of the text: of a text with more lines
behind it they read the same, and leave those lines behind what they left before.
-/
namespace PhraseArithmetic.Toml

def IsLineEnd (c : Char) : Prop := c = '\n' ∨ c = '\r'

/-- A line end, spelled by one character or by two. -/
inductive SpellsNewline : List Char → Prop where
  | feed : SpellsNewline ['\n']
  | carriage : SpellsNewline ['\r', '\n']

theorem SpellsNewline.exists_eq_cons {newline : List Char} (h : SpellsNewline newline) :
    ∃ d more, newline = d :: more ∧ IsLineEnd d := by
  cases h with
  | feed => exact ⟨'\n', [], rfl, .inl rfl⟩
  | carriage => exact ⟨'\r', ['\n'], rfl, .inr rfl⟩

theorem SpellsNewline.afterNewline?_append {newline : List Char} (h : SpellsNewline newline)
    (back : List Char) : afterNewline? (newline ++ back) = some back := by
  cases h <;> rfl

/-- What was read, with more text after it. -/
def extend {α : Type} (more : List Char) (p : α × List Char) : α × List Char := (p.1, p.2 ++ more)

@[simp] theorem extend_mk {α : Type} (more : List Char) (a : α) (rest : List Char) :
    extend more (a, rest) = (a, rest ++ more) := rfl

section
variable {c : Char} {tail : List Char}

theorem IsLineEnd.isBlank_eq_false (hc : IsLineEnd c) : isBlank c = false := by
  rcases hc with rfl | rfl <;> rfl

theorem IsLineEnd.isPlain_eq_false (hc : IsLineEnd c) : isPlain c = false := by
  rcases hc with rfl | rfl <;> rfl

theorem IsLineEnd.digit?_eq_none (hc : IsLineEnd c) : digit? c = none := by
  rcases hc with rfl | rfl <;> rfl

theorem IsLineEnd.isDigit_eq_false (hc : IsLineEnd c) : c.isDigit = false := by
  rcases hc with rfl | rfl <;> rfl

/-! ### Layout -/

theorem dropWhile_append_of_head {p : Char → Bool} (hp : p c = false) (text : List Char) :
    (text ++ c :: tail).dropWhile p = text.dropWhile p ++ c :: tail := by
  induction text with
  | nil => simp [hp]
  | cons d text ih => cases hd : p d <;> simp [hd, ih]

theorem takeWhile_append_of_head {p : Char → Bool} (hp : p c = false) (text : List Char) :
    (text ++ c :: tail).takeWhile p = text.takeWhile p := by
  induction text with
  | nil => simp [hp]
  | cons d text ih => cases hd : p d <;> simp [hd, ih]

theorem skipBlank_append (hc : IsLineEnd c) (text : List Char) :
    skipBlank (text ++ c :: tail) = skipBlank text ++ c :: tail :=
  dropWhile_append_of_head hc.isBlank_eq_false text

theorem skipComment_append (hc : IsLineEnd c) (text : List Char) :
    skipComment (text ++ c :: tail) = skipComment text ++ c :: tail := by
  cases text with
  | nil => rcases hc with rfl | rfl <;> rfl
  | cons d text =>
    by_cases hd : d = '#'
    · subst hd
      exact dropWhile_append_of_head hc.isPlain_eq_false text
    · simp [skipComment, hd]

/-! ### Dates and times -/

theorem after?_append {expected : Char} (he : ¬IsLineEnd expected) (hc : IsLineEnd c)
    (text : List Char) :
    after? expected (text ++ c :: tail) = (after? expected text).map (· ++ c :: tail) := by
  cases text with
  | nil =>
    have hne : c ≠ expected := fun h => he (h ▸ hc)
    simp [after?, hne]
  | cons d text => by_cases hd : d = expected <;> simp [after?, hd]

theorem readTwoDigits_append (hc : IsLineEnd c) (least most : Nat) (text : List Char) :
    readTwoDigits least most (text ++ c :: tail) =
      (readTwoDigits least most text).map (extend (c :: tail)) := by
  have hnone := hc.digit?_eq_none
  rcases text with - | ⟨a, - | ⟨b, text⟩⟩
  · cases tail <;> simp [readTwoDigits, hnone]
  · simp [readTwoDigits, hnone]
  · cases ha : digit? a <;> cases hb : digit? b <;> simp [readTwoDigits, ha, hb]

theorem readYear_append (hc : IsLineEnd c) (text : List Char) :
    readYear (text ++ c :: tail) = (readYear text).map (extend (c :: tail)) := by
  have hnone := hc.digit?_eq_none
  rcases text with - | ⟨a, - | ⟨b, - | ⟨d, - | ⟨e, text⟩⟩⟩⟩
  · rcases tail with - | ⟨_, - | ⟨_, - | ⟨_, _⟩⟩⟩ <;> simp [readYear, hnone]
  · rcases tail with - | ⟨_, - | ⟨_, _⟩⟩ <;> simp [readYear, hnone]
  · rcases tail with - | ⟨_, _⟩ <;> simp [readYear, hnone]
  · simp [readYear, hnone]
  · cases ha : digit? a <;> cases hb : digit? b <;> cases hd : digit? d <;> cases he : digit? e <;>
      simp [readYear, ha, hb, hd, he]

theorem afterDate?_append (hc : IsLineEnd c) (text : List Char) :
    afterDate? (text ++ c :: tail) = (afterDate? text).map (· ++ c :: tail) := by
  have hminus : ¬IsLineEnd '-' := by simp [IsLineEnd]
  simp [afterDate?, readYear_append hc, after?_append hminus hc, readTwoDigits_append hc,
    Option.bind_map, Option.map_bind, Function.comp_def, extend]

theorem skipFraction_append (hc : IsLineEnd c) (text : List Char) :
    skipFraction (text ++ c :: tail) = skipFraction text ++ c :: tail := by
  have hpoint : c ≠ '.' := by rcases hc with rfl | rfl <;> decide
  rcases text with - | ⟨a, - | ⟨b, text⟩⟩
  · simp [skipFraction, hpoint]
  · by_cases ha : a = '.' <;> simp [skipFraction, ha, hc.isDigit_eq_false]
  · by_cases ha : a = '.'
    · cases hb : b.isDigit <;>
        simp [skipFraction, ha, hb, dropWhile_append_of_head hc.isDigit_eq_false]
    · simp [skipFraction, ha]

theorem afterMinute?_append (hc : IsLineEnd c) (text : List Char) :
    afterMinute? (text ++ c :: tail) = (afterMinute? text).map (· ++ c :: tail) := by
  have hcolon : ¬IsLineEnd ':' := by simp [IsLineEnd]
  simp [afterMinute?, readTwoDigits_append hc, after?_append hcolon hc, Option.bind_map,
    Option.map_bind, Function.comp_def, extend]

theorem afterTime?_append (hc : IsLineEnd c) (text : List Char) :
    afterTime? (text ++ c :: tail) = (afterTime? text).map (· ++ c :: tail) := by
  have hcolon : ¬IsLineEnd ':' := by simp [IsLineEnd]
  simp [afterTime?, afterMinute?_append hc, readTwoDigits_append hc, after?_append hcolon hc,
    skipFraction_append hc, Option.bind_map, Option.map_bind, extend]

theorem skipOffset_append (hc : IsLineEnd c) (text : List Char) :
    skipOffset (text ++ c :: tail) = skipOffset text ++ c :: tail := by
  cases text with
  | nil => rcases hc with rfl | rfl <;> rfl
  | cons a text =>
    by_cases hzulu : a = 'Z' ∨ a = 'z'
    · rcases hzulu with rfl | rfl <;> rfl
    · by_cases hsign : a = '+' ∨ a = '-'
      · rcases hsign with rfl | rfl <;>
          simp only [skipOffset, List.cons_append, afterMinute?_append hc] <;>
          cases afterMinute? text <;> rfl
      · rw [not_or] at hzulu hsign
        simp [skipOffset, hzulu, hsign]

theorem skipTimeOfDay_append (hc : IsLineEnd c) (text : List Char) :
    skipTimeOfDay (text ++ c :: tail) = skipTimeOfDay text ++ c :: tail := by
  cases text with
  | nil => rcases hc with rfl | rfl <;> rfl
  | cons a text =>
    by_cases hmark : a = 'T' ∨ a = 't' ∨ a = ' '
    · rcases hmark with rfl | rfl | rfl <;>
        simp only [skipTimeOfDay, List.cons_append, afterTime?_append hc] <;>
        cases afterTime? text <;> simp [skipOffset_append hc]
    · simp only [not_or] at hmark
      simp [skipTimeOfDay, hmark]

theorem afterMoment?_append (hc : IsLineEnd c) (text : List Char) :
    afterMoment? (text ++ c :: tail) = (afterMoment? text).map (· ++ c :: tail) := by
  rw [afterMoment?, afterMoment?, afterDate?_append hc, afterTime?_append hc]
  cases afterDate? text with
  | none => rfl
  | some rest => simp [skipTimeOfDay_append hc]

/-! ### Numbers -/

/-- The test is one for digits: neither a line end nor an underscore passes it. -/
structure IsDigitTest (p : Char → Bool) : Prop where
  newline : p '\n' = false
  carriage : p '\r' = false
  underscore : p '_' = false

theorem IsDigitTest.eq_false {p : Char → Bool} (hp : IsDigitTest p) (hc : IsLineEnd c) :
    p c = false := by
  rcases hc with rfl | rfl
  · exact hp.newline
  · exact hp.carriage

theorem isDigitTest_isDigit : IsDigitTest Char.isDigit := ⟨rfl, rfl, rfl⟩

theorem isDigitTest_isDigitBelow (base : Nat) : IsDigitTest (isDigitBelow base) := ⟨rfl, rfl, rfl⟩

theorem IsLineEnd.ne_underscore (hc : IsLineEnd c) : c ≠ '_' := by
  rcases hc with rfl | rfl <;> decide

theorem readMoreDigits_cons {p : Char → Bool} {d : Char} (hd : d ≠ '_')
    (reversed rest : List Char) :
    readMoreDigits p reversed (d :: rest) =
      if p d then readMoreDigits p (d :: reversed) rest
      else some (reversed.reverse, d :: rest) := by
  rw [readMoreDigits.eq_def]
  simp [hd]

theorem readMoreDigits_append {p : Char → Bool} (hp : IsDigitTest p) (hc : IsLineEnd c)
    (reversed text : List Char) :
    readMoreDigits p reversed (text ++ c :: tail) =
      (readMoreDigits p reversed text).map (extend (c :: tail)) := by
  have hfalse := hp.eq_false hc
  have hunderscore := hp.underscore
  fun_induction readMoreDigits p reversed text with
  | case1 reversed => simp [readMoreDigits_cons hc.ne_underscore, hfalse]
  | case2 reversed d rest hd ih => simp [readMoreDigits, hd, ih]
  | case3 reversed d rest hd => simp [readMoreDigits, hd]
  | case4 reversed d rest _ hd ih =>
    have hne : d ≠ '_' := by
      rintro rfl
      simp [hunderscore] at hd
    rw [List.cons_append, readMoreDigits_cons hne, if_pos hd, ih]
  | case5 reversed rest hrest _ =>
    -- an underscore with nothing behind it
    obtain rfl : rest = [] := by
      cases rest with
      | nil => rfl
      | cons d rest => exact (hrest d rest rfl rfl).elim
    simp [readMoreDigits, hfalse]
  | case6 reversed d rest _ hd hne =>
    rw [List.cons_append, readMoreDigits_cons hne, if_neg hd]
    rfl

theorem readDigits_append {p : Char → Bool} (hp : IsDigitTest p) (hc : IsLineEnd c)
    (text : List Char) :
    readDigits p (text ++ c :: tail) = (readDigits p text).map (extend (c :: tail)) := by
  cases text with
  | nil => simp [readDigits, hp.eq_false hc]
  | cons d text => cases hd : p d <;> simp [readDigits, hd, readMoreDigits_append hp hc]

theorem readWhole_append (hc : IsLineEnd c) (text : List Char) :
    readWhole (text ++ c :: tail) = (readWhole text).map (extend (c :: tail)) := by
  have hdigits : readDigits Char.isDigit (text ++ c :: tail) =
      (readDigits Char.isDigit text).map (extend (c :: tail)) :=
    readDigits_append isDigitTest_isDigit hc text
  cases text with
  | nil => rcases hc with rfl | rfl <;> rfl
  | cons d text =>
    by_cases hd : d = '0'
    · subst hd
      rfl
    · simpa [readWhole, hd] using hdigits

theorem splitSign_append (hc : IsLineEnd c) (text : List Char) :
    splitSign (text ++ c :: tail) = extend (c :: tail) (splitSign text) := by
  cases text with
  | nil => rcases hc with rfl | rfl <;> rfl
  | cons d text =>
    by_cases hplus : d = '+'
    · subst hplus
      rfl
    · by_cases hminus : d = '-'
      · subst hminus
        rfl
      · simp [splitSign, hplus, hminus]

theorem readBased_append (hc : IsLineEnd c) (base : Nat) (text : List Char) :
    readBased base (text ++ c :: tail) = (readBased base text).map (extend (c :: tail)) := by
  simp [readBased, readDigits_append (isDigitTest_isDigitBelow base) hc, Option.bind_map,
    Option.map_bind, Function.comp_def, extend]

theorem readExponent_append (hc : IsLineEnd c) (text : List Char) :
    readExponent (text ++ c :: tail) = (readExponent text).map (extend (c :: tail)) := by
  simp [readExponent, splitSign_append hc, readDigits_append isDigitTest_isDigit hc,
    Option.bind_map, Option.map_bind, Function.comp_def, extend]

theorem IsLineEnd.isExponentMark_eq_false (hc : IsLineEnd c) : isExponentMark c = false := by
  rcases hc with rfl | rfl <;> rfl

theorem readDecimal_append (hc : IsLineEnd c) (negative : Bool) (text : List Char) :
    readDecimal negative (text ++ c :: tail) =
      (readDecimal negative text).map (extend (c :: tail)) := by
  have hmark := hc.isExponentMark_eq_false
  have hpoint : c ≠ '.' := by rcases hc with rfl | rfl <;> decide
  rw [readDecimal, readDecimal, readWhole_append hc]
  cases hw : readWhole text with
  | none => rfl
  | some p =>
    obtain ⟨whole, rest⟩ := p
    cases rest with
    | nil => simp [hmark, Option.map_bind, Function.comp_def]
    | cons d rest =>
      by_cases hd : d = '.'
      · subst hd
        simp only [Option.map_some, extend_mk, Option.bind_eq_bind, Option.bind_some,
          List.cons_append, readDigits_append isDigitTest_isDigit hc]
        cases hf : readDigits Char.isDigit rest with
        | none => rfl
        | some p =>
          obtain ⟨fraction, rest⟩ := p
          cases rest with
          | nil => simp [hmark, Option.map_bind, Function.comp_def]
          | cons e rest =>
            cases he : isExponentMark e <;>
              simp [he, readExponent_append hc, Option.bind_map, Option.map_bind,
                Function.comp_def, extend]
      · cases he : isExponentMark d <;>
          simp [he, readExponent_append hc, Option.bind_map, Option.map_bind, Function.comp_def,
            extend]

/-- A number without the mark of a base. -/
def readSigned : Reader Number := fun text =>
  match splitSign text with
  | (_, 'i' :: 'n' :: 'f' :: rest) | (_, 'n' :: 'a' :: 'n' :: rest) => some (.float, rest)
  | (negative, rest) => readDecimal negative rest

theorem readNumber_eq_readSigned {text : List Char}
    (h : ∀ mark rest, text = '0' :: mark :: rest → mark ≠ 'x' ∧ mark ≠ 'o' ∧ mark ≠ 'b') :
    readNumber text = readSigned text := by
  unfold readNumber
  split
  · next rest => exact absurd rfl (h _ rest rfl).1
  · next rest => exact absurd rfl (h _ rest rfl).2.1
  · next rest => exact absurd rfl (h _ rest rfl).2.2
  · rfl

/-- A text with a line behind it begins with a word only if it does so without that line. -/
theorem exists_eq_append_of_lineEnd (hc : IsLineEnd c) (word : List Char) {text rest : List Char}
    (hword : ∀ d ∈ word, ¬IsLineEnd d) (h : text ++ c :: tail = word ++ rest) :
    ∃ more, text = word ++ more := by
  rcases List.append_eq_append_iff.1 h with ⟨more, hmore, htail⟩ | ⟨more, hmore, -⟩
  · cases more with
    | nil => exact ⟨[], by simpa using hmore.symm⟩
    | cons d more =>
      obtain ⟨rfl, -⟩ := List.cons.inj htail
      exact absurd hc (hword c (by simp [hmore]))
  · exact ⟨more, hmore⟩

theorem readSigned_append (hc : IsLineEnd c) (text : List Char) :
    readSigned (text ++ c :: tail) = (readSigned text).map (extend (c :: tail)) := by
  simp only [readSigned, splitSign_append hc]
  obtain ⟨negative, rest⟩ := splitSign text
  simp only [extend_mk]
  split
  · next more heq =>
    obtain ⟨-, heq⟩ := Prod.mk.inj heq
    obtain ⟨more', rfl⟩ := exists_eq_append_of_lineEnd hc ['i', 'n', 'f']
      (by simp [IsLineEnd]) heq
    simp_all
  · next more heq =>
    obtain ⟨-, heq⟩ := Prod.mk.inj heq
    obtain ⟨more', rfl⟩ := exists_eq_append_of_lineEnd hc ['n', 'a', 'n']
      (by simp [IsLineEnd]) heq
    simp_all
  · next hinf hnan heq =>
    obtain ⟨rfl, rfl⟩ := Prod.mk.inj heq
    rw [readDecimal_append hc]
    split
    · next more heq =>
      obtain ⟨rfl, rfl⟩ := Prod.mk.inj heq
      exact (hinf _ rfl).elim
    · next more heq =>
      obtain ⟨rfl, rfl⟩ := Prod.mk.inj heq
      exact (hnan _ rfl).elim
    · next heq =>
      obtain ⟨rfl, rfl⟩ := Prod.mk.inj heq
      rfl

theorem readNumber_append (hc : IsLineEnd c) (text : List Char) :
    readNumber (text ++ c :: tail) = (readNumber text).map (extend (c :: tail)) := by
  by_cases h : ∀ mark rest, text = '0' :: mark :: rest → mark ≠ 'x' ∧ mark ≠ 'o' ∧ mark ≠ 'b'
  · have h' : ∀ mark rest, text ++ c :: tail = '0' :: mark :: rest →
        mark ≠ 'x' ∧ mark ≠ 'o' ∧ mark ≠ 'b' := by
      intro mark rest heq
      by_contra hmark
      have hword : ∀ d ∈ ['0', mark], ¬IsLineEnd d := by
        simp [IsLineEnd]
        grind
      obtain ⟨more, rfl⟩ := exists_eq_append_of_lineEnd hc _ hword heq
      exact hmark (h mark more rfl)
    rw [readNumber_eq_readSigned h, readNumber_eq_readSigned h', readSigned_append hc]
  · push Not at h
    obtain ⟨mark, rest, rfl, hmark⟩ := h
    have hbased : mark = 'x' ∨ mark = 'o' ∨ mark = 'b' := by grind
    rcases hbased with rfl | rfl | rfl <;> exact readBased_append hc _ rest

/-! ### Keys -/

theorem readBareKey_append (hc : IsLineEnd c) (text : List Char) :
    readBareKey (text ++ c :: tail) = (readBareKey text).map (extend (c :: tail)) := by
  have hbare : isBareKeyChar c = false := by rcases hc with rfl | rfl <;> rfl
  rw [readBareKey, readBareKey, takeWhile_append_of_head hbare, dropWhile_append_of_head hbare]
  split <;> rfl

end
end PhraseArithmetic.Toml
