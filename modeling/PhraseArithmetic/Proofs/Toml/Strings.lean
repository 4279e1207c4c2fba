import PhraseArithmetic.Proofs.Toml.FurtherLines
import PhraseArithmetic.Proofs.Toml.Numerals

/-!
# Reading a spelled string

A string in any quotation is read as the characters that it spells. The inside is read piece by
piece up to the closing marks, which may have marks of the content right before them.
-/
namespace PhraseArithmetic.Toml

namespace Quotation
variable {q : Quotation} {phase next : QuotationPhase} {reversed reversed' text : List Char}
  {c : Char}

theorem read_of_step (hopen : q.closedBefore? phase reversed c = none)
    (h : q.step phase reversed c = some (next, reversed')) (text : List Char) :
    q.read phase reversed (c :: text) = q.read next reversed' text := by
  simp only [read, hopen, h]

theorem width_pos (q : Quotation) : 0 < q.width := by
  unfold width
  split <;> decide

theorem closedBefore?_content_of_lt {marks : Nat} (h : marks < q.width) (reversed : List Char)
    (c : Char) : q.closedBefore? (.content marks) reversed c = none := by
  simp [closedBefore?, closes, Nat.not_le.2 h]

/-- A character that is no mark is content, and marks before it that close nothing are too. -/
theorem read_content {marks : Nat} (h : marks < q.width) (hc : c ≠ q.mark)
    (reversed text : List Char) :
    q.read (.content marks) reversed (c :: text) =
      q.read (.content 0) (List.replicate marks q.mark ++ reversed) (c :: text) := by
  simp only [read, closedBefore?_content_of_lt h, closedBefore?_content_of_lt q.width_pos, step,
    contentStep, if_neg hc, List.replicate_zero, List.nil_append]

/-- One more mark of a run that is not the longest one. -/
theorem read_mark {marks : Nat} (h : marks < q.longestRun) (reversed text : List Char) :
    q.read (.content marks) reversed (q.mark :: text) =
      q.read (.content (marks + 1)) reversed text := by
  refine read_of_step ?_ ?_ text
  · simp [closedBefore?, closes, Nat.ne_of_lt h]
  · simp [step, contentStep]

theorem read_marks {k : Nat} (h : k ≤ q.longestRun) (reversed text : List Char) :
    q.read (.content 0) reversed (List.replicate k q.mark ++ text) =
      q.read (.content k) reversed text := by
  induction k generalizing text with
  | zero => rfl
  | succ k ih =>
    rw [List.replicate_succ', List.append_assoc, List.singleton_append, ih (by omega),
      read_mark (by omega)]

/-- A run of marks closes a string when no further mark can belong to it. -/
theorem read_close {marks : Nat} (hwidth : q.width ≤ marks)
    (hstop : ∀ c, text.head? = some c → c ≠ q.mark ∨ marks = q.longestRun) (reversed : List Char) :
    q.read (.content marks) reversed text = some (q.close marks reversed, text) := by
  cases text with
  | nil => simp [read, closedAtEnd?, hwidth]
  | cons c text =>
    simp [read, closedBefore?, closes, hwidth, hstop c rfl]

theorem read_plain (hplain : isPlain c = true) (hmark : c ≠ q.mark)
    (hescape : q.escapes = true → c ≠ '\\') (reversed text : List Char) :
    q.read (.content 0) reversed (c :: text) = q.read (.content 0) (c :: reversed) text := by
  have hfeed : c ≠ '\n' := by
    rintro rfl
    exact absurd hplain (by decide)
  have hcarriage : c ≠ '\r' := by
    rintro rfl
    exact absurd hplain (by decide)
  have hbackslash : (q.escapes && decide (c = '\\')) = false := by simpa using hescape
  refine read_of_step (closedBefore?_content_of_lt q.width_pos _ _) ?_ text
  simp [step, contentStep, hmark, hbackslash, hfeed, hcarriage, hplain]

theorem read_backslash (hq : q.escapes = true) (hmark : q.mark ≠ '\\') (reversed text : List Char) :
    q.read (.content 0) reversed ('\\' :: text) = q.read .escape reversed text := by
  refine read_of_step (closedBefore?_content_of_lt q.width_pos _ _) ?_ text
  simp [step, contentStep, hq, hmark.symm]

theorem read_letter {e : Char} (he : (c, e) ∈ letterEscapes) (reversed text : List Char) :
    q.read .escape reversed (c :: text) = q.read (.content 0) (e :: reversed) text := by
  have hall : ∀ p ∈ letterEscapes, p.1 ≠ 'u' ∧ p.1 ≠ 'U' ∧ escapeValue? p.1 = some p.2 := by
    decide
  obtain ⟨hshort, hlong, hvalue⟩ := hall (c, e) he
  refine read_of_step rfl ?_ text
  simp only [step, escapeStep, if_neg hshort, if_neg hlong, hvalue]

theorem read_digits {digits : List Char} {missing n : Nat} (h : SpellsDigits 16 digits n)
    (hbare : '_' ∉ digits) (hmissing : digits.length < missing) (reversed text : List Char) :
    q.read (.scalar missing 0) reversed (digits ++ text) =
      q.read (.scalar (missing - digits.length) n) reversed text := by
  induction h generalizing text with
  | @digit c d hc _ =>
    refine read_of_step rfl ?_ text
    have hmore : ¬missing ≤ 1 := by simpa using hmissing
    simp [step, scalarStep, Json.hexValue?_of_isHexadecimal hc, hmore]
  | @concat digits n d c _ hc _ ih =>
    rw [List.length_append, List.length_singleton] at hmissing
    rw [List.append_assoc, List.singleton_append, ih (by simp_all) (by omega)]
    refine read_of_step rfl ?_ text
    have hmore : ¬missing - digits.length ≤ 1 := by omega
    simp [step, scalarStep, Json.hexValue?_of_isHexadecimal hc, hmore, Nat.sub_sub]
  | apart => simp at hbare

theorem scalar?_toNat (c : Char) : scalar? c.toNat = some c := by
  have hvalid : c.toNat.isValidChar := c.valid
  rw [scalar?, if_pos hvalid, Char.ofNat_toNat]

theorem scalarStep_last {d value : Nat} {e : Char} (he : Json.IsHexadecimal e d)
    (hvalue : value * 16 + d = c.toNat) (reversed : List Char) :
    scalarStep 1 value reversed e = some (.content 0, c :: reversed) := by
  simp [scalarStep, Json.hexValue?_of_isHexadecimal he, hvalue, scalar?_toNat]

/-- All digits of a character's number are read, and the last one completes it. -/
theorem read_all_digits {digits : List Char} (h : SpellsDigits 16 digits c.toNat)
    (hbare : '_' ∉ digits) (reversed text : List Char) :
    q.read (.scalar digits.length 0) reversed (digits ++ text) =
      q.read (.content 0) (c :: reversed) text := by
  generalize hn : c.toNat = n at h
  cases h with
  | digit he _ =>
    refine read_of_step rfl ?_ text
    simpa [step] using scalarStep_last he (by omega) reversed
  | @concat digits n d e h he _ =>
    rw [List.append_assoc, List.singleton_append,
      read_digits h (by simp_all) (by simp)]
    refine read_of_step rfl ?_ text
    simpa [step] using scalarStep_last he hn.symm reversed
  | apart => simp at hbare

theorem read_codePoint {u : List Char} (hu : SpellsCodePoint u c) (reversed text : List Char) :
    q.read .escape reversed (u ++ text) = q.read (.content 0) (c :: reversed) text := by
  cases hu with
  | short h hbare hlength =>
    rw [List.cons_append, read_of_step rfl rfl, ← hlength, read_all_digits h hbare]
  | long h hbare hlength =>
    rw [List.cons_append, read_of_step rfl rfl, ← hlength, read_all_digits h hbare]

theorem read_newline (hq : q.multiline = true) (hmark : ¬IsLineEnd q.mark) {newline : List Char}
    (hn : SpellsNewline newline) (reversed text : List Char) :
    q.read (.content 0) reversed (newline ++ text) =
      q.read (.content 0) ('\n' :: reversed) text := by
  obtain ⟨hfeed, hcarriage⟩ := not_or.1 hmark
  cases hn with
  | feed =>
    refine read_of_step (closedBefore?_content_of_lt q.width_pos _ _) ?_ text
    simp [step, contentStep, hq, Ne.symm hfeed]
  | carriage =>
    have hstep : q.step (.content 0) reversed '\r' = some (.carriage false, reversed) := by
      simp [step, contentStep, hq, Ne.symm hcarriage]
    have hfollow : q.step (.carriage false) reversed '\n' =
        some (.content 0, '\n' :: reversed) := by simp [step]
    exact (read_of_step (closedBefore?_content_of_lt q.width_pos _ _) hstep ('\n' :: text)).trans
      (read_of_step rfl hfollow text)

/-- A line end behind a backslash, or behind spacing that a backslash has begun. -/
theorem read_folded_newline (hq : q.multiline = true)
    (hphase : phase = .escape ∨ phase = .fold ∨ phase = .folded) {newline : List Char}
    (hn : SpellsNewline newline) (reversed text : List Char) :
    q.read phase reversed (newline ++ text) = q.read .folded reversed text := by
  have hfeed : q.step phase reversed '\n' = some (.folded, reversed) := by
    rcases hphase with rfl | rfl | rfl <;> simp [step, escapeStep, escapeValue?, isBlank, hq]
  have hcarriage : q.step phase reversed '\r' = some (.carriage true, reversed) := by
    rcases hphase with rfl | rfl | rfl <;> simp [step, escapeStep, escapeValue?, isBlank, hq]
  have hopen (c : Char) : q.closedBefore? phase reversed c = none := by
    rcases hphase with rfl | rfl | rfl <;> rfl
  cases hn with
  | feed => exact read_of_step (hopen _) hfeed text
  | carriage =>
    have hfollow : q.step (.carriage true) reversed '\n' = some (.folded, reversed) := by
      simp [step]
    exact (read_of_step (hopen _) hcarriage ('\n' :: text)).trans (read_of_step rfl hfollow text)

theorem read_fold_blanks {blanks : List Char} (h : IsBlanks blanks) (reversed text : List Char) :
    q.read .fold reversed (blanks ++ text) = q.read .fold reversed text := by
  induction blanks with
  | nil => rfl
  | cons c blanks ih =>
    obtain ⟨hc, hblanks⟩ := List.forall_mem_cons.1 h
    rw [← ih hblanks]
    exact read_of_step rfl (by simp [step, hc]) _

theorem read_folded_spacing (hq : q.multiline = true) {spacing : List Char}
    (h : IsSpacing spacing) (reversed text : List Char) :
    q.read .folded reversed (spacing ++ text) = q.read .folded reversed text := by
  induction h with
  | nil => rfl
  | @blank c spacing hc _ ih =>
    rw [← ih]
    exact read_of_step rfl (by simp [step, hc]) _
  | newline hn _ ih =>
    rw [List.append_assoc, read_folded_newline hq (.inr (.inr rfl)) hn, ih]

theorem read_folded_stop (hblank : isBlank c = false) (hc : ¬IsLineEnd c)
    (reversed text : List Char) :
    q.read .folded reversed (c :: text) = q.read (.content 0) reversed (c :: text) := by
  obtain ⟨hfeed, hcarriage⟩ := not_or.1 hc
  have hopen : q.closedBefore? .folded reversed c = none := rfl
  simp only [read, hopen, closedBefore?_content_of_lt q.width_pos, step, hblank, hfeed, hcarriage,
    decide_false, Bool.or_false, Bool.false_eq_true, if_false]

/-- A backslash at the end of a line is read with all spacing behind it. -/
theorem read_fold (hq : q.multiline = true) {blanks newline spacing : List Char}
    (hblanks : IsBlanks blanks) (hn : SpellsNewline newline) (hspacing : IsSpacing spacing)
    {text : List Char} (htext : ∃ c more, text = c :: more ∧ isBlank c = false ∧ ¬IsLineEnd c)
    (reversed : List Char) :
    q.read .escape reversed (blanks ++ (newline ++ (spacing ++ text))) =
      q.read (.content 0) reversed text := by
  have hfolded : q.read .folded reversed (spacing ++ text) = q.read (.content 0) reversed text := by
    obtain ⟨c, more, rfl, hblank, hc⟩ := htext
    rw [read_folded_spacing hq hspacing, read_folded_stop hblank hc]
  rw [← hfolded]
  cases blanks with
  | nil => exact read_folded_newline hq (.inl rfl) hn reversed _
  | cons c blanks =>
    obtain ⟨hc, hblanks⟩ := List.forall_mem_cons.1 hblanks
    have hstep : q.step .escape reversed c = some (.fold, reversed) := by
      rcases eq_of_isBlank hc with rfl | rfl
      · simp [step, escapeStep, escapeValue?, hq, isBlank]
      · simp [step, escapeStep, escapeValue?, hq, isBlank]
    rw [List.cons_append, read_of_step rfl hstep, read_fold_blanks hblanks,
      read_folded_newline hq (.inr (.inl rfl)) hn]

/-- The inside of a string is read as what it spells, up to the marks behind it. -/
theorem read_of_spells (hmark : q.mark = '"' ∨ q.mark = '\'') {text s : List Char}
    (h : SpellsContent q text s) {rest : List Char} (hrest : rest.head? = some q.mark)
    (reversed : List Char) :
    q.read (.content 0) reversed (text ++ rest) =
      q.read (.content 0) (s.reverse ++ reversed) rest := by
  have hbackslash : q.mark ≠ '\\' := by rcases hmark with hmark | hmark <;> rw [hmark] <;> decide
  have hline : ¬IsLineEnd q.mark := by
    rcases hmark with hmark | hmark <;> rw [hmark] <;> simp [IsLineEnd]
  have hblank : isBlank q.mark = false := by
    rcases hmark with hmark | hmark <;> rw [hmark] <;> rfl
  induction h generalizing reversed with
  | nil => rfl
  | plain hc hplain hescape _ ih =>
    rw [List.cons_append, read_plain hc hplain hescape, ih]
    simp
  | letter hq he _ ih =>
    rw [List.cons_append, List.cons_append, read_backslash hq hbackslash, read_letter he, ih]
    simp
  | codePoint hq hu _ ih =>
    rw [List.cons_append, List.append_assoc, read_backslash hq hbackslash, read_codePoint hu, ih]
    simp
  | newline hq hn _ ih =>
    rw [List.append_assoc, read_newline hq hline hn, ih]
    simp
  | @fold blanks newline spacing text s hq hlines hblanks hn hspacing hstop _ ih =>
    have htext : ∃ c more, text ++ rest = c :: more ∧ isBlank c = false ∧ ¬IsLineEnd c := by
      cases text with
      | nil =>
        obtain ⟨more, rfl⟩ := List.head?_eq_some_iff.1 hrest
        exact ⟨q.mark, more, rfl, hblank, hline⟩
      | cons c text => exact ⟨c, text ++ rest, rfl, hstop c rfl⟩
    simp only [List.cons_append, List.append_assoc]
    rw [read_backslash hq hbackslash, read_fold hlines hblanks hn hspacing htext, ih]
  | @marks k c text s hq hk hc _ ih =>
    have hwidth : q.width = 3 := by simp [width, hq]
    have hlongest : q.longestRun = 5 := by simp [longestRun, hq]
    rw [List.append_assoc, read_marks (by omega), List.cons_append, read_content (by omega) hc,
      ← List.cons_append, ih]
    simp

end Quotation

section
variable {text rest s : List Char} {q : Quotation}

theorem SpellsLineString.readLineString_eq {s : String} (h : SpellsLineString text s)
    (rest : List Char) : readLineString (text ++ rest) = some (s, rest) := by
  obtain @⟨q, text, s, hq, h⟩ := h
  have hread (hmark : q.mark = '"' ∨ q.mark = '\'') (hwidth : q.width = 1)
      (hrun : q.longestRun = 1) :
      q.read (.content 0) [] (text ++ [q.mark] ++ rest) = some (String.ofList s, rest) := by
    rw [List.append_assoc, List.singleton_append, Quotation.read_of_spells hmark h rfl,
      Quotation.read_mark (by omega), Quotation.read_close (by omega) fun _ _ => .inr (by omega)]
    simp [Quotation.close, hwidth]
  rcases hq with rfl | rfl
  · exact hread (.inl rfl) rfl rfl
  · exact hread (.inr rfl) rfl rfl

/-- A text that begins with no triple mark. -/
theorem readString_eq_readLineString
    (h : ∀ mark, mark = '"' ∨ mark = '\'' → ¬[mark, mark, mark] <+: text) :
    readString text = readLineString text := by
  unfold readString
  split
  · next rest => exact absurd ⟨rest, rfl⟩ (h '"' (.inl rfl))
  · next rest => exact absurd ⟨rest, rfl⟩ (h '\'' (.inr rfl))
  · rfl

theorem SpellsContent.head?_ne (h : SpellsContent q text s) (hq : q.multiline = false)
    (hmark : q.mark ≠ '\\') : text.head? ≠ some q.mark := by
  cases h with
  | nil => simp
  | plain _ hplain _ _ => simpa using hplain
  | letter _ _ _ => simpa using hmark.symm
  | codePoint _ _ _ => simpa using hmark.symm
  | newline hlines _ _ => simp [hq] at hlines
  | fold _ hlines _ _ _ _ _ => simp [hq] at hlines
  | marks hlines _ _ _ => simp [hq] at hlines

theorem dropNewline_of_head {c : Char} (hc : ¬IsLineEnd c) (rest : List Char) :
    dropNewline (c :: rest) = c :: rest := by
  obtain ⟨hfeed, hcarriage⟩ := not_or.1 hc
  simp [dropNewline, afterNewline?, hfeed, hcarriage]

theorem SpellsNewline.dropNewline_append {newline : List Char} (h : SpellsNewline newline)
    (rest : List Char) : dropNewline (newline ++ rest) = rest := by
  rw [dropNewline, h.afterNewline?_append]
  rfl

theorem readString_of_marks (hq : q = .basicLines ∨ q = .literalLines) (text : List Char) :
    readString (List.replicate 3 q.mark ++ text) = q.read (.content 0) [] (dropNewline text) := by
  rcases hq with rfl | rfl <;> rfl

/-- The inside of a string in triple marks is read to its end. -/
theorem read_lines (hq : q = .basicLines ∨ q = .literalLines) {k : Nat} (hk : k < 3)
    (h : SpellsContent q text s) (hrest : rest.head? ≠ some q.mark) :
    q.read (.content 0) [] (text ++ List.replicate (k + 3) q.mark ++ rest) =
      some (String.ofList (s ++ List.replicate k q.mark), rest) := by
  have hmark := Quotation.mark_of_lines hq
  have hwidth : q.width = 3 := by rcases hq with rfl | rfl <;> rfl
  have hrun : q.longestRun = 5 := by rcases hq with rfl | rfl <;> rfl
  have hstop : ∀ c, rest.head? = some c → c ≠ q.mark := fun c hc heq => hrest (heq ▸ hc)
  have hmarks : (List.replicate (k + 3) q.mark ++ rest).head? = some q.mark := by
    simp [List.replicate_succ]
  rw [List.append_assoc, Quotation.read_of_spells hmark h hmarks,
    Quotation.read_marks (by omega), Quotation.read_close (by omega) fun c hc => .inl (hstop c hc)]
  simp [Quotation.close, hwidth]

/-- A string in single marks does not begin with three marks, also where it is empty. -/
theorem SpellsLineString.no_triple_mark {s : String} (h : SpellsLineString text s) {mark : Char}
    (hrest : rest.head? ≠ some mark) : ¬[mark, mark, mark] <+: text ++ rest := by
  obtain @⟨q, content, s, hq, h⟩ := h
  have hbackslash : q.mark ≠ '\\' := by rcases hq with rfl | rfl <;> decide
  have hline : q.multiline = false := by rcases hq with rfl | rfl <;> rfl
  have hhead := h.head?_ne hline hbackslash
  rintro ⟨more, heq⟩
  obtain ⟨rfl, heq⟩ := List.cons.inj heq
  cases content with
  | nil =>
    obtain ⟨-, heq⟩ := List.cons.inj heq
    exact hrest (by rw [← show _ = rest from heq]; rfl)
  | cons c content =>
    obtain ⟨rfl, -⟩ := List.cons.inj heq
    exact hhead rfl

theorem SpellsString.readString_eq {s : String} (h : SpellsString text s)
    (hrest : ∀ mark, mark = '"' ∨ mark = '\'' → rest.head? ≠ some mark) :
    readString (text ++ rest) = some (s, rest) := by
  cases h with
  | line h =>
    rw [readString_eq_readLineString fun mark hmark => h.no_triple_mark (hrest mark hmark),
      h.readLineString_eq]
  | @lines q k text s hq hk hstart h =>
    have hmark := Quotation.mark_of_lines hq
    have hdrop : dropNewline (text ++ List.replicate (k + 3) q.mark ++ rest) =
        text ++ List.replicate (k + 3) q.mark ++ rest := by
      cases text with
      | nil =>
        refine dropNewline_of_head ?_ _
        rcases hmark with hmark | hmark <;> rw [hmark] <;> simp [IsLineEnd]
      | cons c text => exact dropNewline_of_head (hstart c rfl) _
    rw [List.append_assoc, readString_of_marks hq, hdrop, read_lines hq hk h (hrest _ hmark)]
  | @linesBelow q k newline text s hq hk hn h =>
    have hmark := Quotation.mark_of_lines hq
    rw [List.append_assoc, readString_of_marks hq, List.append_assoc, hn.dropNewline_append,
      read_lines hq hk h (hrest _ hmark)]

/-- A string begins with a mark. -/
theorem SpellsString.exists_cons {s : String} (h : SpellsString text s) :
    ∃ c more, text = c :: more ∧ (c = '"' ∨ c = '\'') := by
  cases h with
  | line h =>
    obtain @⟨q, content, s, hq, h⟩ := h
    refine ⟨q.mark, _, rfl, ?_⟩
    rcases hq with rfl | rfl
    · exact .inl rfl
    · exact .inr rfl
  | lines hq _ _ _ => exact ⟨_, _, rfl, Quotation.mark_of_lines hq⟩
  | linesBelow hq _ _ _ => exact ⟨_, _, rfl, Quotation.mark_of_lines hq⟩

end

/-! ### Either of both -/

section
variable {text rest : List Char} {v : Value}

/-- A scalar begins with a mark, a digit or a sign. -/
theorem SpellsScalar.exists_cons (h : SpellsScalar text v) :
    ∃ c more, text = c :: more ∧
      (c = '"' ∨ c = '\'' ∨ c.isDigit = true ∨ c = '+' ∨ c = '-') := by
  cases h with
  | text h =>
    obtain ⟨c, more, rfl, hc⟩ := h.exists_cons
    exact ⟨c, more, rfl, hc.elim .inl fun hc => .inr (.inl hc)⟩
  | integer h _ =>
    obtain ⟨c, more, rfl, hc⟩ := h.exists_cons
    exact ⟨c, more, rfl, .inr (.inr hc)⟩

theorem SpellsScalar.readScalar_eq (h : SpellsScalar text v) (hrest : Closes rest) :
    readScalar (text ++ rest) = some (v, rest) := by
  cases h with
  | text h =>
    have hmarks : ∀ mark, mark = '"' ∨ mark = '\'' → rest.head? ≠ some mark := by
      rintro mark (rfl | rfl) hhead <;> exact absurd (hrest _ hhead) (by decide)
    obtain ⟨c, more, rfl, hc⟩ := h.exists_cons
    have hread := h.readString_eq hmarks
    rw [List.cons_append] at hread ⊢
    rw [readScalar_of_quote hc, hread]
    rfl
  | integer h hn =>
    have hmoment := afterMoment?_of_spells h hrest
    have hread := readNumber_of_spells h hn hrest
    obtain ⟨c, more, rfl, hc⟩ := h.exists_cons
    have hquote : ¬(c = '"' ∨ c = '\'') := by
      rintro (rfl | rfl) <;> exact absurd hc (by decide)
    have htruth : ¬(c = 't' ∨ c = 'f') := by
      rintro (rfl | rfl) <;> exact absurd hc (by decide)
    rw [List.cons_append] at hmoment hread ⊢
    rw [readScalar_of_head hquote htruth, hmoment, hread]
    rfl

end
end PhraseArithmetic.Toml
