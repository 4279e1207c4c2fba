import PhraseArithmetic.Proofs.Json.Grammar
import PhraseArithmetic.Proofs.Toml.LineEnds

/-!
# How a line of TOML is spelled

The lines that set a key to a string, to a number or to an array of these, and the lines that are
headers with one key: every way to quote a string, to write a number, to space and to comment.
-/
namespace PhraseArithmetic.Toml

/-! ### Numbers -/

/-- Digits in a base, in either case; single underscores may stand between them. -/
inductive SpellsDigits (base : Nat) : List Char → Nat → Prop where
  | digit {c : Char} {d : Nat} (hc : Json.IsHexadecimal c d) (hd : d < base) :
      SpellsDigits base [c] d
  | concat {text : List Char} {n d : Nat} {c : Char} (h : SpellsDigits base text n)
      (hc : Json.IsHexadecimal c d) (hd : d < base) : SpellsDigits base (text ++ [c]) (n * base + d)
  | apart {text : List Char} {n d : Nat} {c : Char} (h : SpellsDigits base text n)
      (hc : Json.IsHexadecimal c d) (hd : d < base) :
      SpellsDigits base (text ++ ['_', c]) (n * base + d)

/-- Decimal digits, of which a leading zero stands alone. -/
structure SpellsDecimal (text : List Char) (n : Nat) : Prop where
  digits : SpellsDigits 10 text n
  noLeadingZero : text.head? = some '0' → text = ['0']

inductive SpellsInteger : List Char → Nat → Prop where
  | unsigned {text : List Char} {n : Nat} (h : SpellsDecimal text n) : SpellsInteger text n
  | plus {text : List Char} {n : Nat} (h : SpellsDecimal text n) : SpellsInteger ('+' :: text) n
  | minusZero : SpellsInteger ['-', '0'] 0
  | hexadecimal {text : List Char} {n : Nat} (h : SpellsDigits 16 text n) :
      SpellsInteger ('0' :: 'x' :: text) n
  | octal {text : List Char} {n : Nat} (h : SpellsDigits 8 text n) :
      SpellsInteger ('0' :: 'o' :: text) n
  | binary {text : List Char} {n : Nat} (h : SpellsDigits 2 text n) :
      SpellsInteger ('0' :: 'b' :: text) n

/-! ### Strings -/

/-- The one-letter escapes and what they stand for. -/
def letterEscapes : List (Char × Char) :=
  [('b', '\x08'), ('t', '\t'), ('n', '\n'), ('f', '\x0c'), ('r', '\r'), ('"', '"'), ('\\', '\\')]

/-- A character named by its number, in four hexadecimal digits or in eight. -/
inductive SpellsCodePoint : List Char → Char → Prop where
  | short {digits : List Char} {c : Char} (h : SpellsDigits 16 digits c.toNat)
      (hbare : '_' ∉ digits) (hlength : digits.length = 4) : SpellsCodePoint ('u' :: digits) c
  | long {digits : List Char} {c : Char} (h : SpellsDigits 16 digits c.toNat)
      (hbare : '_' ∉ digits) (hlength : digits.length = 8) : SpellsCodePoint ('U' :: digits) c

def IsBlanks (text : List Char) : Prop := ∀ c ∈ text, isBlank c = true

theorem isBlanks_nil : IsBlanks [] := nofun

theorem eq_of_isBlank {c : Char} (h : isBlank c = true) : c = ' ' ∨ c = '\t' := by
  simpa [isBlank] using h

/-- Blanks and line ends. -/
inductive IsSpacing : List Char → Prop where
  | nil : IsSpacing []
  | blank {c : Char} {text : List Char} (hc : isBlank c = true) (h : IsSpacing text) :
      IsSpacing (c :: text)
  | newline {newline text : List Char} (hn : SpellsNewline newline) (h : IsSpacing text) :
      IsSpacing (newline ++ text)

/-- The inside of a string and the characters that it spells. A backslash at the end of a line
takes the line end and all spacing behind it out of the string. -/
inductive SpellsContent (q : Quotation) : List Char → List Char → Prop where
  | nil : SpellsContent q [] []
  | plain {c : Char} {text s : List Char} (hc : isPlain c = true) (hmark : c ≠ q.mark)
      (hescape : q.escapes = true → c ≠ '\\') (h : SpellsContent q text s) :
      SpellsContent q (c :: text) (c :: s)
  | letter {c e : Char} {text s : List Char} (hq : q.escapes = true)
      (he : (c, e) ∈ letterEscapes) (h : SpellsContent q text s) :
      SpellsContent q ('\\' :: c :: text) (e :: s)
  | codePoint {c : Char} {u text s : List Char} (hq : q.escapes = true) (hu : SpellsCodePoint u c)
      (h : SpellsContent q text s) : SpellsContent q ('\\' :: (u ++ text)) (c :: s)
  | newline {newline text s : List Char} (hq : q.multiline = true) (hn : SpellsNewline newline)
      (h : SpellsContent q text s) : SpellsContent q (newline ++ text) ('\n' :: s)
  | fold {blanks newline spacing text s : List Char} (hq : q.escapes = true)
      (hlines : q.multiline = true) (hblanks : IsBlanks blanks) (hn : SpellsNewline newline)
      (hspacing : IsSpacing spacing)
      (hstop : ∀ c, text.head? = some c → isBlank c = false ∧ ¬IsLineEnd c)
      (h : SpellsContent q text s) :
      SpellsContent q ('\\' :: (blanks ++ (newline ++ (spacing ++ text)))) s
  | marks {k : Nat} {c : Char} {text s : List Char} (hq : q.multiline = true) (hk : k < 3)
      (hc : c ≠ q.mark) (h : SpellsContent q (c :: text) s) :
      SpellsContent q (List.replicate k q.mark ++ c :: text) (List.replicate k q.mark ++ s)

/-- A string in single marks. -/
inductive SpellsLineString : List Char → String → Prop where
  | mk {q : Quotation} {text s : List Char} (hq : q = .basic ∨ q = .literal)
      (h : SpellsContent q text s) :
      SpellsLineString (q.mark :: (text ++ [q.mark])) (String.ofList s)

/-- A string in single marks or in triple ones, of which the last may have one or two marks of
content before them. A line end right behind the first triple mark is no content. -/
inductive SpellsString : List Char → String → Prop where
  | line {text : List Char} {s : String} (h : SpellsLineString text s) : SpellsString text s
  | lines {q : Quotation} {k : Nat} {text s : List Char}
      (hq : q = .basicLines ∨ q = .literalLines) (hk : k < 3)
      (hstart : ∀ c, text.head? = some c → ¬IsLineEnd c) (h : SpellsContent q text s) :
      SpellsString (List.replicate 3 q.mark ++ (text ++ List.replicate (k + 3) q.mark))
        (String.ofList (s ++ List.replicate k q.mark))
  | linesBelow {q : Quotation} {k : Nat} {newline text s : List Char}
      (hq : q = .basicLines ∨ q = .literalLines) (hk : k < 3) (hn : SpellsNewline newline)
      (h : SpellsContent q text s) :
      SpellsString (List.replicate 3 q.mark ++ (newline ++ (text ++ List.replicate (k + 3) q.mark)))
        (String.ofList (s ++ List.replicate k q.mark))

/-! ### Values -/

/-- The first number that no integer of TOML reaches. -/
def integerBound : Nat := 9223372036854775808

inductive SpellsScalar : List Char → Value → Prop where
  | text {text : List Char} {s : String} (h : SpellsString text s) : SpellsScalar text (.text s)
  | integer {text : List Char} {n : Nat} (h : SpellsInteger text n) (hn : n < integerBound) :
      SpellsScalar text (.integer n)

/-- Blanks, line ends and comments between the elements of an array. -/
inductive IsLayout : List Char → Prop where
  | nil : IsLayout []
  | blank {c : Char} {text : List Char} (hc : isBlank c = true) (h : IsLayout text) :
      IsLayout (c :: text)
  | newline {newline text : List Char} (hn : SpellsNewline newline) (h : IsLayout text) :
      IsLayout (newline ++ text)
  | comment {comment newline text : List Char} (hc : ∀ c ∈ comment, isPlain c = true)
      (hn : SpellsNewline newline) (h : IsLayout text) :
      IsLayout ('#' :: (comment ++ (newline ++ text)))

/-- The elements of an array with their commas, of which one may stand behind the last element. -/
inductive SpellsElements : List Char → List Value → Prop where
  | none {layout : List Char} (h : IsLayout layout) : SpellsElements layout []
  | last {before text after : List Char} {v : Value} (hbefore : IsLayout before)
      (hv : SpellsScalar text v) (hafter : IsLayout after) :
      SpellsElements (before ++ (text ++ after)) [v]
  | comma {before text after rest : List Char} {v : Value} {vs : List Value}
      (hbefore : IsLayout before) (hv : SpellsScalar text v) (hafter : IsLayout after)
      (h : SpellsElements rest vs) :
      SpellsElements (before ++ (text ++ (after ++ ',' :: rest))) (v :: vs)

inductive SpellsValue : List Char → Value → Prop where
  | scalar {text : List Char} {v : Value} (h : SpellsScalar text v) : SpellsValue text v
  | array {text : List Char} {vs : List Value} (h : SpellsElements text vs) :
      SpellsValue ('[' :: (text ++ [']'])) (.array vs)

/-! ### Lines -/

inductive SpellsKey : List Char → String → Prop where
  | bare {text : List Char} (hne : text ≠ []) (h : ∀ c ∈ text, isBareKeyChar c = true) :
      SpellsKey text (String.ofList text)
  | quoted {text : List Char} {key : String} (h : SpellsLineString text key) : SpellsKey text key

/-- Blanks and perhaps a comment, to the end of the line. -/
inductive IsTrailer : List Char → Prop where
  | blanks {blanks : List Char} (h : IsBlanks blanks) : IsTrailer blanks
  | comment {blanks comment : List Char} (h : IsBlanks blanks)
      (hc : ∀ c ∈ comment, isPlain c = true) : IsTrailer (blanks ++ '#' :: comment)

/-- A line with one statement, either the header of a table or the assignment of a value, whose key
has no dots. -/
inductive SpellsLine : List Char → Statement → Prop where
  | header {indent before text after trailer : List Char} {key : String} (hindent : IsBlanks indent)
      (hbefore : IsBlanks before) (hkey : SpellsKey text key) (hafter : IsBlanks after)
      (htrailer : IsTrailer trailer) :
      SpellsLine (indent ++ '[' :: (before ++ (text ++ (after ++ ']' :: trailer)))) (.table [key])
  | assignment {indent text before after spelled trailer : List Char} {key : String} {v : Value}
      (hindent : IsBlanks indent) (hkey : SpellsKey text key) (hbefore : IsBlanks before)
      (hafter : IsBlanks after) (hv : SpellsValue spelled v) (htrailer : IsTrailer trailer) :
      SpellsLine (indent ++ (text ++ (before ++ '=' :: (after ++ (spelled ++ trailer)))))
        (.assign [key] v)

/-! ### Everything can be spelled -/

theorem isHexadecimal_digitChar {d : Nat} (hd : d < 16) : Json.IsHexadecimal d.digitChar d :=
  ⟨hd, .inl rfl⟩

theorem exists_spellsDigits (n : Nat) : ∃ text, SpellsDigits 16 text n := by
  induction n using Nat.strongRecOn with
  | ind n ih =>
    by_cases hn : n < 16
    · exact ⟨[n.digitChar], .digit (isHexadecimal_digitChar hn) hn⟩
    · obtain ⟨text, htext⟩ := ih (n / 16) (by omega)
      have hlast : n % 16 < 16 := Nat.mod_lt n (by decide)
      have hconcat := htext.concat (isHexadecimal_digitChar hlast) hlast
      rw [Nat.div_add_mod' n 16] at hconcat
      exact ⟨_, hconcat⟩

/-- A number has a spelling of any length that is long enough. -/
theorem exists_spellsDigits_of_lt (k n : Nat) (hn : n < Nat.pow 16 (k + 1)) :
    ∃ text, SpellsDigits 16 text n ∧ '_' ∉ text ∧ text.length = k + 1 := by
  induction k generalizing n with
  | zero =>
    have hn : n < 16 := hn
    exact ⟨[n.digitChar], .digit (isHexadecimal_digitChar hn) hn, by simp, rfl⟩
  | succ k ih =>
    have hn : n < Nat.pow 16 (k + 1) * 16 := hn
    obtain ⟨text, htext, hunderscore, hlength⟩ := ih (n / 16) (by omega)
    have hlast : n % 16 < 16 := Nat.mod_lt n (by decide)
    have hconcat := htext.concat (isHexadecimal_digitChar hlast) hlast
    rw [Nat.div_add_mod' n 16] at hconcat
    exact ⟨_, hconcat, by simp [hunderscore], by simp [hlength]⟩

theorem exists_spellsCodePoint (c : Char) : ∃ u, SpellsCodePoint u c := by
  have hc : c.toNat < Nat.pow 16 8 := by
    have hvalid : c.toNat.isValidChar := c.valid
    have hpow : Nat.pow 16 8 = 4294967296 := by decide
    rcases hvalid with hvalid | hvalid <;> omega
  obtain ⟨digits, hdigits, hbare, hlength⟩ := exists_spellsDigits_of_lt 7 c.toNat hc
  exact ⟨_, .long hdigits hbare hlength⟩

theorem exists_spellsString (s : String) : ∃ text, SpellsString text s := by
  have hcontent (characters : List Char) : ∃ text, SpellsContent .basic text characters := by
    induction characters with
    | nil => exact ⟨[], .nil⟩
    | cons c characters ih =>
      obtain ⟨text, htext⟩ := ih
      obtain ⟨u, hu⟩ := exists_spellsCodePoint c
      exact ⟨_, .codePoint rfl hu htext⟩
  obtain ⟨text, htext⟩ := hcontent s.toList
  have hline := SpellsLineString.mk (.inl rfl) htext
  rw [String.ofList_toList] at hline
  exact ⟨_, .line hline⟩

theorem exists_spellsInteger (n : Nat) : ∃ text, SpellsInteger text n := by
  obtain ⟨text, htext⟩ := exists_spellsDigits n
  exact ⟨_, .hexadecimal htext⟩

theorem exists_spellsScalar_text (s : String) : ∃ text, SpellsScalar text (.text s) := by
  obtain ⟨text, htext⟩ := exists_spellsString s
  exact ⟨text, .text htext⟩

theorem exists_spellsScalar_integer {n : Nat} (hn : n < integerBound) :
    ∃ text, SpellsScalar text (.integer n) := by
  obtain ⟨text, htext⟩ := exists_spellsInteger n
  exact ⟨text, .integer htext hn⟩

theorem exists_spellsElements {vs : List Value} (h : ∀ v ∈ vs, ∃ text, SpellsScalar text v) :
    ∃ text, SpellsElements text vs := by
  induction vs with
  | nil => exact ⟨[], .none .nil⟩
  | cons v vs ih =>
    obtain ⟨⟨text, htext⟩, hvs⟩ := List.forall_mem_cons.1 h
    obtain ⟨rest, hrest⟩ := ih hvs
    exact ⟨_, .comma .nil htext .nil hrest⟩

theorem spellsKey_of_bare {key : String} (hne : key.toList ≠ [])
    (h : key.toList.all isBareKeyChar = true) : SpellsKey key.toList key := by
  have hkey := SpellsKey.bare hne (List.all_eq_true.1 h)
  rwa [String.ofList_toList] at hkey

/-- The statement is one that a line can spell. -/
def HasLine (s : Statement) : Prop := ∃ line, SpellsLine line s

theorem hasLine_header {key : String} (hkey : SpellsKey key.toList key) :
    HasLine (.table [key]) :=
  ⟨_, .header isBlanks_nil isBlanks_nil hkey isBlanks_nil (.blanks isBlanks_nil)⟩

theorem hasLine_assignment {key : String} {v : Value} (hkey : SpellsKey key.toList key)
    (hv : ∃ text, SpellsValue text v) : HasLine (.assign [key] v) := by
  obtain ⟨text, htext⟩ := hv
  exact ⟨_, .assignment isBlanks_nil hkey isBlanks_nil isBlanks_nil htext (.blanks isBlanks_nil)⟩

end PhraseArithmetic.Toml
