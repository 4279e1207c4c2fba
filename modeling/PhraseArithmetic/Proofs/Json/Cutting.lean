import PhraseArithmetic.Json.Written
import PhraseArithmetic.Proofs.Json.Grammar
import PhraseArithmetic.Proofs.Json.Seams

/-!
# What is spelled is cut into its lexemes

Every part of a JSON text is cut into its own lexemes and then what follows as a text of its own, if
that cannot go on with a numeral.
-/
namespace PhraseArithmetic.Json
open Lexer (State)

/-- Nothing follows, or a character that ends every numeral. -/
def Stops : List Text.Symbol → Prop
  | [] => True
  | c :: _ => ∃ d, c = some d ∧ IsDelimiter d

theorem isSpace_of_mem_blanks {c : Char} (h : c ∈ blanks) : isSpace c = true := by
  simpa [blanks, isSpace, or_assoc] using h

theorem isDelimiter_of_mem_blanks {c : Char} (h : c ∈ blanks) : IsDelimiter c := by
  have hall : ∀ b ∈ blanks, b.isDigit = false ∧ b ≠ '.' ∧ b ≠ 'e' ∧ b ≠ 'E' := by
    simp [blanks]
  exact hall c h

theorem lexemes_blank {c : Char} (h : c ∈ blanks) (rest : List Text.Symbol) :
    lexemes (some c :: rest) = lexemes rest := by
  have hpush : [some c].foldl State.push .start = ⟨.between, []⟩ := by
    simp [State.push, State.pushChar, State.start, State.begin, isSpace_of_mem_blanks h, State.goto]
  exact lexemes_append_of_between hpush rest

theorem lexemes_blanks {text : List Char} (h : ∀ c ∈ text, c ∈ blanks) (rest : List Text.Symbol) :
    lexemes (Text.symbols text ++ rest) = lexemes rest := by
  induction text with
  | nil => rfl
  | cons c text ih =>
    rw [List.forall_mem_cons] at h
    exact (lexemes_blank h.1 _).trans (ih h.2)

/-! ### Strings -/

theorem hexValue?_of_isHexadecimal {c : Char} {d : Nat} (h : IsHexadecimal c d) :
    Text.hexValue? c = some d := by
  obtain ⟨hd, rfl | rfl⟩ := h
  · exact Text.hexValue?_digitChar hd
  · have hall : ∀ k : Fin 16, Text.hexValue? (Nat.digitChar k).toUpper = some k.val := by decide
    exact hall ⟨d, hd⟩

section
variable (s : State)

theorem foldl_push_unit {u : List Char} {n : Nat} (h : SpellsUnit u n) (spelling : Spelling) :
    (Text.symbols u).foldl State.push (s.goto (.string spelling)) =
      s.goto (.string (spelling.unit n)) := by
  obtain ⟨ha, hb, hc, hd⟩ := h
  simp [Text.symbols, State.push, State.pushChar, State.goto, hexValue?_of_isHexadecimal ha,
    hexValue?_of_isHexadecimal hb, hexValue?_of_isHexadecimal hc, hexValue?_of_isHexadecimal hd]

theorem escapeValue?_of_mem {c e : Char} (h : (c, e) ∈ letterEscapes) :
    c ≠ 'u' ∧ escapeValue? c = some e := by
  have hall : ∀ p ∈ letterEscapes, p.1 ≠ 'u' ∧ escapeValue? p.1 = some p.2 := by decide
  exact hall (c, e) h

/-- One more character is spelled by `u`, and then what the rest spells. -/
theorem foldl_push_append_inside {u text spelled : List Char} {c : Char} {reversed : List Char}
    (hu : (Text.symbols u).foldl State.push (s.inside reversed) = s.inside (c :: reversed))
    (h : (Text.symbols text).foldl State.push (s.inside (c :: reversed)) =
      s.inside (spelled.reverse ++ c :: reversed)) :
    (Text.symbols (u ++ text)).foldl State.push (s.inside reversed) =
      s.inside ((c :: spelled).reverse ++ reversed) := by
  have hsplit : Text.symbols (u ++ text) = Text.symbols u ++ Text.symbols text := List.map_append
  rw [hsplit, List.foldl_append, hu, h]
  simp

theorem foldl_push_characters {text spelled : List Char} (h : SpellsCharacters text spelled)
    (reversed : List Char) :
    (Text.symbols text).foldl State.push (s.inside reversed) =
      s.inside (spelled.reverse ++ reversed) := by
  induction h generalizing reversed with
  | nil => rfl
  | @plain c text spelled hc hq hb h ih =>
    have hspace : ¬c < ' ' := Char.not_lt.2 hc
    refine foldl_push_append_inside (u := [c]) s ?_ (ih _)
    simp [Text.symbols, State.push, State.pushChar, State.inside, State.goto, hq, hb, hspace,
      Spelling.char]
  | @letter c e text spelled he h ih =>
    obtain ⟨hu, hvalue⟩ := escapeValue?_of_mem he
    refine foldl_push_append_inside (u := ['\\', c]) s ?_ (ih _)
    simp [Text.symbols, State.push, State.pushChar, State.inside, State.goto, hu, hvalue,
      Spelling.char]
  | @unit u text spelled n hu hn h ih =>
    refine foldl_push_append_inside s ?_ (ih _)
    have hhigh : isHighSurrogate n = false := by simp [isHighSurrogate]; omega
    have hlow : isLowSurrogate n = false := by simp [isLowSurrogate]; omega
    rw [State.inside, foldl_push_unit s hu]
    simp [Spelling.unit, hhigh, hlow, State.inside]
  | @pair u v text spelled high low hu hhigh hv hlow h ih =>
    refine foldl_push_append_inside s ?_ (ih _)
    have hh : isHighSurrogate high = true := by simp [isHighSurrogate, hhigh]
    have hl : isLowSurrogate low = true := by simp [isLowSurrogate, hlow]
    have hsplit : Text.symbols (u ++ v) = Text.symbols u ++ Text.symbols v := List.map_append
    rw [hsplit, List.foldl_append, State.inside, foldl_push_unit s hu, foldl_push_unit s hv]
    simp [Spelling.unit, hh, hl, State.inside]

end

theorem foldl_push_string {text spelled : List Char} (h : SpellsCharacters text spelled) :
    (Text.symbols ('"' :: text ++ ['"'])).foldl State.push .start =
      ⟨.between, [.string (some (String.ofList spelled))]⟩ := by
  have hopen : State.start.push (some '"') = State.start.inside [] := rfl
  have hbody := foldl_push_characters .start h []
  have hclose : (State.start.inside spelled.reverse).push (some '"') =
      ⟨.between, [.string (some (String.ofList spelled))]⟩ := by
    simp [State.push, State.pushChar, State.inside, State.goto, State.emit, State.start,
      Spelling.close]
  simp only [Text.symbols, List.append_nil] at hbody
  simp only [Text.symbols, List.cons_append, List.map_cons, List.map_append, List.foldl_cons,
    List.foldl_append, hopen, hbody, List.map_nil, List.foldl_nil, hclose]

/-! ### Numerals -/

/-- The phase at which the text of a numeral ends that goes on in this phase. -/
def NumberPhase.after? (p : NumberPhase) (text : List Char) : Option NumberPhase :=
  text.foldlM next? p

theorem NumberPhase.after?_append {p q : NumberPhase} {front : List Char}
    (h : p.after? front = some q) (rest : List Char) :
    p.after? (front ++ rest) = q.after? rest := by
  have hfront : front.foldlM next? p = some q := h
  simp [after?, List.foldlM_append, hfront]

theorem foldl_push_number {p q : NumberPhase} {text : List Char} (h : p.after? text = some q)
    (s : State) (reversed : List Char) :
    (Text.symbols text).foldl State.push (s.goto (.number p reversed)) =
      s.goto (.number q (text.reverse ++ reversed)) := by
  induction text generalizing p reversed with
  | nil =>
    obtain rfl : p = q := Option.some.inj h
    rfl
  | cons c text ih =>
    obtain ⟨next, hnext, htext⟩ := Option.bind_eq_some_iff.1 h
    have hpush : (s.goto (.number p reversed)).push (some c) =
        s.goto (.number next (c :: reversed)) := by
      simp [State.push, State.pushChar, State.goto, NumberPhase.advance, hnext]
    have ih := ih htext (c :: reversed)
    simp only [Text.symbols] at ih
    simp [Text.symbols, hpush, ih]

theorem NumberPhase.advance_of_isDelimiter {p : NumberPhase} (hp : p.isComplete = true) {c : Char}
    (hc : IsDelimiter c) : p.advance c = .finish := by
  obtain ⟨hdigit, hpoint, he, hE⟩ := hc
  cases p with
  | zero => simp [advance, next?, isComplete, hdigit, hpoint, he, hE]
  | whole => simp [advance, next?, isComplete, hdigit, hpoint, he, hE]
  | fraction => simp [advance, next?, isComplete, hdigit, he, hE]
  | exponent => simp [advance, next?, isComplete, hdigit]
  | minus => simp [isComplete] at hp
  | point => simp [isComplete] at hp
  | exponentMark => simp [isComplete] at hp
  | exponentSign => simp [isComplete] at hp

/-- A whole numeral is one lexeme before anything that cannot go on with it. -/
theorem lexemes_of_number {p : NumberPhase} {text : List Char}
    (h : (Text.symbols text).foldl State.push .start = State.start.goto (.number p text.reverse))
    (hp : p.isComplete = true) {rest : List Text.Symbol} (hrest : Stops rest) :
    lexemes (Text.symbols text ++ rest) = .number text :: lexemes rest := by
  cases rest with
  | nil =>
    rw [List.append_nil, lexemes, h]
    simp [State.finish, State.goto, State.start, hp, lexemes]
  | cons c rest =>
    obtain ⟨d, rfl, hd⟩ := hrest
    -- the delimiter ends the numeral and is then read as it is at the start of a text
    have hpush : (State.start.goto (.number p text.reverse)).push (some d) =
        (State.start.push (some d)).onto [.number text] := by
      have hend : (State.start.goto (.number p text.reverse)).push (some d) =
          (State.start.onto [.number text]).begin d := by
        simp [State.push, State.pushChar, State.goto, NumberPhase.advance_of_isDelimiter hp hd]
        rfl
      rw [hend, State.begin_onto]
      rfl
    rw [lexemes, List.foldl_append, h, List.foldl_cons, hpush, State.foldl_push_onto,
      State.finish_onto]
    rfl

theorem NumberPhase.after?_digits {p : NumberPhase}
    (hp : ∀ d : Char, d.isDigit = true → p.next? d = some p) {digits : List Char}
    (h : ∀ d ∈ digits, d.isDigit = true) : p.after? digits = some p := by
  induction digits with
  | nil => rfl
  | cons d digits ih =>
    rw [List.forall_mem_cons] at h
    simp only [after?, List.foldlM_cons, hp d h.1]
    exact ih h.2

theorem NumberPhase.after?_of_isDigits {p q : NumberPhase}
    (hp : ∀ d : Char, d.isDigit = true → p.next? d = some q)
    (hq : ∀ d : Char, d.isDigit = true → q.next? d = some q) {digits : List Char}
    (h : IsDigits digits) : p.after? digits = some q := by
  obtain ⟨hne, hdigits⟩ := h
  cases digits with
  | nil => exact absurd rfl hne
  | cons d digits =>
    rw [List.forall_mem_cons] at hdigits
    simp only [after?, List.foldlM_cons, hp d hdigits.1]
    exact after?_digits hq hdigits.2

namespace Numeral
variable (n : Numeral)

theorem whole_cases :
    n.whole = ['0'] ∨ ∃ d digits, n.whole = d :: digits ∧ d ≠ '0' ∧ d.isDigit = true ∧
      ∀ c ∈ digits, c.isDigit = true := by
  rcases n.noLeadingZero with h | h
  · exact .inl h
  · obtain ⟨hne, hdigits⟩ := n.isWhole
    cases hw : n.whole with
    | nil => exact absurd hw hne
    | cons d digits =>
      rw [hw, List.forall_mem_cons] at hdigits
      exact .inr ⟨d, digits, rfl, by simpa [hw] using h, hdigits.1, hdigits.2⟩

theorem foldl_push_whole :
    ∃ p : NumberPhase, (p = .zero ∨ p = .whole) ∧
      (Text.symbols (n.sign ++ n.whole)).foldl State.push .start =
        State.start.goto (.number p (n.sign ++ n.whole).reverse) := by
  rcases n.whole_cases with hw | ⟨d, digits, hw, hd, hdigit, hdigits⟩
  · refine ⟨.zero, .inl rfl, ?_⟩
    cases hs : n.negative <;> simp [sign, hs, hw] <;> rfl
  · refine ⟨.whole, .inr rfl, ?_⟩
    have hafter : NumberPhase.whole.after? digits = some .whole :=
      NumberPhase.after?_digits (by simp +contextual [NumberPhase.next?]) hdigits
    have hopen : (Text.symbols (n.sign ++ [d])).foldl State.push .start =
        State.start.goto (.number .whole (n.sign ++ [d]).reverse) := by
      cases hs : n.negative with
      | false =>
        simp [sign, hs, Text.symbols, State.push, State.pushChar, State.start,
          begin_digit hdigit hd, State.goto]
      | true =>
        have hminus : NumberPhase.minus.advance d = .extend .whole := by
          simp [NumberPhase.advance, NumberPhase.next?, hd, hdigit]
        have hpush : State.start.push (some '-') = State.start.goto (.number .minus ['-']) := rfl
        simp [sign, hs, Text.symbols, hpush]
        simp [State.push, State.pushChar, State.goto, hminus]
    have hsplit : Text.symbols (n.sign ++ n.whole) =
        Text.symbols (n.sign ++ [d]) ++ Text.symbols digits := by simp [hw, Text.symbols]
    rw [hsplit, List.foldl_append, hopen, foldl_push_number hafter]
    simp [hw]

theorem after?_fractionText {p : NumberPhase} (hp : p = .zero ∨ p = .whole) :
    ∃ q : NumberPhase, (q = .zero ∨ q = .whole ∨ q = .fraction) ∧
      p.after? n.fractionText = some q := by
  cases hf : n.fraction with
  | none => exact ⟨p, hp.imp_right .inl, by simp [fractionText, hf, NumberPhase.after?]⟩
  | some digits =>
    refine ⟨.fraction, by simp, ?_⟩
    have hpoint : p.next? '.' = some .point := by rcases hp with rfl | rfl <;> rfl
    have hdigits : NumberPhase.point.after? digits = some .fraction :=
      NumberPhase.after?_of_isDigits (by simp +contextual [NumberPhase.next?])
        (by simp +contextual [NumberPhase.next?]) (n.isFraction digits hf)
    simpa [fractionText, hf, NumberPhase.after?, hpoint] using hdigits

theorem after?_exponentText {p : NumberPhase} (hp : p = .zero ∨ p = .whole ∨ p = .fraction) :
    ∃ q : NumberPhase, q.isComplete = true ∧ p.after? n.exponentText = some q := by
  cases he : n.exponent with
  | none =>
    refine ⟨p, ?_, by simp [exponentText, he, NumberPhase.after?]⟩
    rcases hp with rfl | rfl | rfl <;> rfl
  | some e =>
    refine ⟨.exponent, rfl, ?_⟩
    have hmark : p.next? e.mark = some .exponentMark := by
      rcases e.isMark with h | h <;> rcases hp with rfl | rfl | rfl <;> rw [h] <;> rfl
    have hdigits (q : NumberPhase)
        (hq : ∀ d : Char, d.isDigit = true → q.next? d = some .exponent) :
        q.after? e.digits = some .exponent :=
      NumberPhase.after?_of_isDigits hq (by simp +contextual [NumberPhase.next?]) e.isDigits
    have hsigned : NumberPhase.exponentMark.after? (e.sign ++ e.digits) = some .exponent := by
      have hunsigned := hdigits .exponentMark (by simp +contextual [NumberPhase.next?])
      have hafter := hdigits .exponentSign (by simp +contextual [NumberPhase.next?])
      rcases e.isSign with h | h | h
      · simpa [h] using hunsigned
      · rw [h, NumberPhase.after?_append (q := .exponentSign) rfl, hafter]
      · rw [h, NumberPhase.after?_append (q := .exponentSign) rfl, hafter]
    simpa [exponentText, he, Exponent.text, NumberPhase.after?, hmark] using hsigned

theorem exists_foldl_push :
    ∃ p : NumberPhase, p.isComplete = true ∧
      (Text.symbols n.text).foldl State.push .start =
        State.start.goto (.number p n.text.reverse) := by
  obtain ⟨p, hp, hwhole⟩ := n.foldl_push_whole
  obtain ⟨q, hq, hfraction⟩ := n.after?_fractionText hp
  obtain ⟨q', hq', hexponent⟩ := n.after?_exponentText hq
  have hrest : p.after? (n.fractionText ++ n.exponentText) = some q' := by
    rw [NumberPhase.after?_append hfraction, hexponent]
  refine ⟨q', hq', ?_⟩
  have hsplit : Text.symbols n.text = Text.symbols (n.sign ++ n.whole) ++
      Text.symbols (n.fractionText ++ n.exponentText) := by simp [text, Text.symbols]
  rw [hsplit, List.foldl_append, hwhole, foldl_push_number hrest]
  simp [text]

end Numeral

/-! ### Whole texts -/

theorem stops_cons {c : Char} (h : IsDelimiter c) (rest : List Text.Symbol) :
    Stops (some c :: rest) := ⟨c, rfl, h⟩

theorem isDelimiter_comma : IsDelimiter ',' := ⟨rfl, by decide, by decide, by decide⟩

theorem isDelimiter_colon : IsDelimiter ':' := ⟨rfl, by decide, by decide, by decide⟩

theorem isDelimiter_endArray : IsDelimiter ']' := ⟨rfl, by decide, by decide, by decide⟩

theorem isDelimiter_endObject : IsDelimiter '}' := ⟨rfl, by decide, by decide, by decide⟩

section
variable {text : List Char} {rest : List Text.Symbol}

theorem stops_furtherElements {ts : List Tree} (h : Spells text (.furtherElements ts))
    (hrest : Stops rest) : Stops (Text.symbols text ++ rest) := by
  cases h with
  | noFurtherElements => exact hrest
  | furtherElements => exact stops_cons isDelimiter_comma _

theorem stops_furtherMembers {ms : List (String × Tree)} (h : Spells text (.furtherMembers ms))
    (hrest : Stops rest) : Stops (Text.symbols text ++ rest) := by
  cases h with
  | noFurtherMembers => exact hrest
  | furtherMembers => exact stops_cons isDelimiter_comma _

theorem symbols_append (front more : List Char) (rest : List Text.Symbol) :
    Text.symbols (front ++ more) ++ rest = Text.symbols front ++ (Text.symbols more ++ rest) := by
  simp [Text.symbols]

theorem symbols_cons (c : Char) (text : List Char) (rest : List Text.Symbol) :
    Text.symbols (c :: text) ++ rest = some c :: (Text.symbols text ++ rest) := rfl

theorem symbols_nil (rest : List Text.Symbol) : Text.symbols [] ++ rest = rest := rfl

/-- A text that is read as one lexeme whatever follows. -/
theorem lexemes_of_token {l : Lexeme}
    (h : (Text.symbols text).foldl State.push .start = ⟨.between, [l]⟩) (rest : List Text.Symbol) :
    lexemes (Text.symbols text ++ rest) = l :: lexemes rest :=
  lexemes_append_of_between h rest

theorem lexemes_cons {c : Char} {l : Lexeme} (h : State.start.push (some c) = ⟨.between, [l]⟩)
    (rest : List Text.Symbol) : lexemes (some c :: rest) = l :: lexemes rest := by
  have htoken : (Text.symbols [c]).foldl State.push .start = ⟨.between, [l]⟩ := h
  exact lexemes_of_token htoken rest

end

/-- Every part of a text is cut into its own lexemes. -/
theorem lexemes_of_spells {text : List Char} {p : Fragment} (h : Spells text p)
    {rest : List Text.Symbol} (hrest : Stops rest) :
    lexemes (Text.symbols text ++ rest) = p.lexemes ++ lexemes rest := by
  induction h generalizing rest with
  | null => exact lexemes_of_token rfl rest
  | true => exact lexemes_of_token rfl rest
  | false => exact lexemes_of_token rfl rest
  | number n =>
    obtain ⟨p, hp, hpush⟩ := n.exists_foldl_push
    exact lexemes_of_number hpush hp hrest
  | string h => exact lexemes_of_token (foldl_push_string h) rest
  | array h ih =>
    simp only [List.cons_append, symbols_cons, symbols_append, symbols_nil]
    rw [lexemes_cons (l := .beginArray) rfl, ih (stops_cons isDelimiter_endArray rest),
      lexemes_cons (l := .endArray) rfl]
    simp [Fragment.lexemes, lexemes_array]
  | object h ih =>
    simp only [List.cons_append, symbols_cons, symbols_append, symbols_nil]
    rw [lexemes_cons (l := .beginObject) rfl, ih (stops_cons isDelimiter_endObject rest),
      lexemes_cons (l := .endObject) rfl]
    simp [Fragment.lexemes, lexemes_object]
  | blankBefore hc h ih =>
    rw [symbols_cons, lexemes_blank hc, ih hrest]
  | blankAfter hc h ih =>
    simp only [symbols_append, symbols_cons, symbols_nil]
    rw [ih (stops_cons (isDelimiter_of_mem_blanks hc) rest), lexemes_blank hc]
  | member hkey h ihkey ih =>
    simp only [symbols_append, symbols_cons]
    rw [ihkey (stops_cons isDelimiter_colon _), lexemes_cons (l := .colon) rfl, ih hrest]
    simp [Fragment.lexemes, Tree.lexemes]
  | noElements h => exact lexemes_blanks h rest
  | elements h hmore ih ihmore =>
    rw [symbols_append, ih (stops_furtherElements hmore hrest), ihmore hrest]
    simp [Fragment.lexemes]
  | noFurtherElements => rfl
  | furtherElements h hmore ih ihmore =>
    simp only [List.cons_append, symbols_cons, symbols_append]
    rw [lexemes_cons (l := .comma) rfl, ih (stops_furtherElements hmore hrest), ihmore hrest]
    simp [Fragment.lexemes, furtherElementLexemes]
  | noMembers h => exact lexemes_blanks h rest
  | members h hmore ih ihmore =>
    rw [symbols_append, ih (stops_furtherMembers hmore hrest), ihmore hrest]
    simp [Fragment.lexemes]
  | noFurtherMembers => rfl
  | furtherMembers h hmore ih ihmore =>
    simp only [List.cons_append, symbols_cons, symbols_append]
    rw [lexemes_cons (l := .comma) rfl, ih (stops_furtherMembers hmore hrest), ihmore hrest]
    simp [Fragment.lexemes, furtherMemberLexemes]

end PhraseArithmetic.Json
