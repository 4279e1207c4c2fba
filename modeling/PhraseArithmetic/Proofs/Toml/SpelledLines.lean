import PhraseArithmetic.Proofs.Toml.Lines
import PhraseArithmetic.Proofs.Toml.Strings

/-!
# Reading a spelled line

A line that is spelled by the grammar is read as the statement that it spells.
-/
namespace PhraseArithmetic.Toml

/-! ### Blanks and layout -/

section
variable {c : Char} {blanks layout text rest : List Char}

theorem IsBlanks.skipBlank_append (h : IsBlanks blanks) (rest : List Char) :
    skipBlank (blanks ++ rest) = skipBlank rest := List.dropWhile_append_of_pos h

theorem skipBlank_of_head (hc : isBlank c = false) (rest : List Char) :
    skipBlank (c :: rest) = c :: rest := by simp [skipBlank, hc]

theorem IsBlanks.skipBlank_append_cons (h : IsBlanks blanks) (hc : isBlank c = false)
    (rest : List Char) : skipBlank (blanks ++ c :: rest) = c :: rest := by
  rw [h.skipBlank_append, skipBlank_of_head hc]

theorem SpellsNewline.skipLayoutFrom_append {newline : List Char} (h : SpellsNewline newline)
    (inComment : Bool) (rest : List Char) :
    skipLayoutFrom inComment (newline ++ rest) = skipLayoutFrom false rest := by
  cases h with
  | feed => exact skipLayoutFrom_cons (by decide) inComment rest
  | carriage => simp [skipLayoutFrom]

theorem skipLayoutFrom_comment {comment : List Char} (h : ∀ c ∈ comment, isPlain c = true)
    (rest : List Char) : skipLayoutFrom true (comment ++ rest) = skipLayoutFrom true rest := by
  induction comment with
  | nil => rfl
  | cons c comment ih =>
    obtain ⟨hc, hcomment⟩ := List.forall_mem_cons.1 h
    have hline : ¬IsLineEnd c := by
      intro hend
      simp [hend.isPlain_eq_false] at hc
    obtain ⟨hfeed, hcarriage⟩ := not_or.1 hline
    rw [List.cons_append, skipLayoutFrom_cons hcarriage, if_neg hfeed, if_pos rfl, if_pos hc,
      ih hcomment]

theorem IsLayout.skipLayout_append (h : IsLayout layout) (rest : List Char) :
    skipLayout (layout ++ rest) = skipLayout rest := by
  induction h with
  | nil => rfl
  | @blank c layout hc _ ih =>
    have hline : ¬IsLineEnd c := by
      intro hend
      simp [hend.isBlank_eq_false] at hc
    obtain ⟨hfeed, hcarriage⟩ := not_or.1 hline
    rw [← ih, skipLayout, List.cons_append, skipLayoutFrom_cons hcarriage, if_neg hfeed,
      if_neg Bool.false_ne_true, if_pos hc]
    rfl
  | newline hn _ ih =>
    rw [← ih, List.append_assoc, skipLayout, hn.skipLayoutFrom_append]
    rfl
  | @comment comment newline layout hc hn _ ih =>
    rw [← ih, skipLayout, List.cons_append, skipLayoutFrom_cons (by decide)]
    simp only [List.append_assoc, skipLayoutFrom_comment hc, hn.skipLayoutFrom_append]
    rfl

theorem skipLayout_of_head (hblank : isBlank c = false) (hline : ¬IsLineEnd c) (hhash : c ≠ '#')
    (rest : List Char) : skipLayout (c :: rest) = c :: rest := by
  obtain ⟨hfeed, hcarriage⟩ := not_or.1 hline
  rw [skipLayout, skipLayoutFrom_cons hcarriage, if_neg hfeed, if_neg Bool.false_ne_true, hblank,
    if_neg Bool.false_ne_true, if_neg hhash]

/-- Layout, and then a comma or a bracket, may stand right behind a value. -/
theorem IsLayout.closes_append (h : IsLayout layout) (hc : c = ',' ∨ c = ']') (rest : List Char) :
    Closes (layout ++ c :: rest) := by
  intro d hd
  cases h with
  | nil =>
    obtain rfl : c = d := by simpa using hd
    rcases hc with rfl | rfl <;> decide
  | @blank e text he _ =>
    obtain rfl : e = d := by simpa using hd
    rcases eq_of_isBlank he with rfl | rfl <;> decide
  | @newline newline text hn _ =>
    obtain ⟨e, more, rfl, he⟩ := hn.exists_eq_cons
    obtain rfl : e = d := by simpa using hd
    rcases he with rfl | rfl <;> decide
  | comment _ _ _ =>
    obtain rfl : '#' = d := by simpa using hd
    decide

end

/-! ### Values -/

section
variable {text rest : List Char} {v : Value} {vs : List Value}

theorem SpellsScalar.exists_head (h : SpellsScalar text v) :
    ∃ c more, text = c :: more ∧ isBlank c = false ∧ ¬IsLineEnd c ∧ c ≠ '#' ∧ c ≠ ']' ∧
      ¬(c = '[' ∨ c = '\x7b') := by
  obtain ⟨c, more, rfl, hc⟩ := h.exists_cons
  refine ⟨c, more, rfl, ?_⟩
  rcases hc with rfl | rfl | hc | rfl | rfl
  · simp [isBlank, IsLineEnd]
  · simp [isBlank, IsLineEnd]
  · refine ⟨?_, ?_, ?_, ?_, ?_⟩
    · refine Bool.eq_false_iff.2 fun hblank => ?_
      rcases eq_of_isBlank hblank with rfl | rfl <;> exact absurd hc (by decide)
    all_goals rintro (rfl | rfl) <;> exact absurd hc (by decide)
  · simp [isBlank, IsLineEnd]
  · simp [isBlank, IsLineEnd]

theorem SpellsScalar.skipLayout_append (h : SpellsScalar text v) (rest : List Char) :
    skipLayout (text ++ rest) = text ++ rest := by
  obtain ⟨c, more, rfl, hblank, hline, hhash, -, -⟩ := h.exists_head
  exact skipLayout_of_head hblank hline hhash _

theorem SpellsScalar.readValue_eq (h : SpellsScalar text v) (hrest : Closes rest) (depth : Nat) :
    readValue depth (text ++ rest) = some (v, rest) := by
  have hread := h.readScalar_eq hrest
  obtain ⟨c, more, rfl, -, -, -, -, hopen⟩ := h.exists_head
  exact (readValue_of_scalar hopen depth _).trans hread

/-- The first element of an array and the layout before it are read. -/
theorem SpellsScalar.readValue_skipLayout_eq (h : SpellsScalar text v) {before : List Char}
    (hbefore : IsLayout before) (hrest : Closes rest) (depth : Nat) :
    (skipLayout (before ++ (text ++ rest))).head? ≠ some ']' ∧
      readValue depth (skipLayout (before ++ (text ++ rest))) = some (v, rest) := by
  rw [hbefore.skipLayout_append, h.skipLayout_append]
  refine ⟨?_, h.readValue_eq hrest depth⟩
  obtain ⟨c, more, rfl, -, -, -, hbracket, -⟩ := h.exists_head
  simpa using hbracket

theorem SpellsElements.readElements_eq (h : SpellsElements text vs) (depth : Nat)
    (rest : List Char) :
    readElements (readValue depth) (vs.length + 1) (text ++ ']' :: rest) = some (vs, rest) := by
  have hend (rest : List Char) : skipLayout (']' :: rest) = ']' :: rest :=
    skipLayout_of_head rfl (by simp [IsLineEnd]) (by decide) rest
  have hcomma (rest : List Char) : skipLayout (',' :: rest) = ',' :: rest :=
    skipLayout_of_head rfl (by simp [IsLineEnd]) (by decide) rest
  induction h with
  | none hlayout =>
    exact readElements_of_end (by rw [hlayout.skipLayout_append, hend]) _
  | @last before text after v hbefore hv hafter =>
    obtain ⟨hhead, hread⟩ := hv.readValue_skipLayout_eq hbefore
      (hafter.closes_append (.inr rfl) rest) depth
    simp only [List.append_assoc]
    exact readElements_of_last hhead hread (by rw [hafter.skipLayout_append, hend]) _
  | @comma before text after more v vs hbefore hv hafter _ ih =>
    obtain ⟨hhead, hread⟩ := hv.readValue_skipLayout_eq hbefore
      (hafter.closes_append (.inl rfl) (more ++ ']' :: rest)) depth
    simp only [List.append_assoc, List.cons_append]
    rw [List.length_cons, readElements_of_comma hhead hread
      (by rw [hafter.skipLayout_append, hcomma]), ih]
    rfl

/-- Every element takes up at least one character. -/
theorem SpellsElements.length_le (h : SpellsElements text vs) : vs.length ≤ text.length := by
  induction h with
  | none => simp
  | @last before text after v _ hv _ =>
    obtain ⟨c, more, rfl, -⟩ := hv.exists_cons
    simp
    omega
  | comma => simp; omega

theorem SpellsValue.readValue_eq (h : SpellsValue text v) (hrest : Closes rest) (depth : Nat) :
    readValue (depth + 1) (text ++ rest) = some (v, rest) := by
  cases h with
  | scalar h => exact h.readValue_eq hrest (depth + 1)
  | @array text vs h =>
    have hlength : vs.length + 1 ≤ ('[' :: (text ++ [']']) ++ rest).length := by
      have hle := h.length_le
      simp
      omega
    have hread := readElements_mono hlength (h.readElements_eq depth rest)
    have hopen : '[' :: (text ++ [']']) ++ rest = '[' :: (text ++ ']' :: rest) := by simp
    rw [hopen] at hread ⊢
    simp only [readValue, hread, Option.map_some]

/-- A value has no blank at its beginning. -/
theorem SpellsValue.skipBlank_append (h : SpellsValue text v) (rest : List Char) :
    skipBlank (text ++ rest) = text ++ rest := by
  cases h with
  | scalar h =>
    obtain ⟨c, more, rfl, hblank, -⟩ := h.exists_head
    exact skipBlank_of_head hblank _
  | array _ => exact skipBlank_of_head rfl _

end

/-! ### Keys -/

section
variable {c : Char} {text rest : List Char} {key : String}

theorem SpellsKey.exists_cons (h : SpellsKey text key) :
    ∃ c more, text = c :: more ∧ (isBareKeyChar c = true ∨ c = '"' ∨ c = '\'') := by
  cases h with
  | bare hne h =>
    obtain ⟨c, more, rfl⟩ := List.exists_cons_of_ne_nil hne
    exact ⟨c, more, rfl, .inl (h c (by simp))⟩
  | quoted h =>
    obtain ⟨c, more, rfl, hc⟩ := (SpellsString.line h).exists_cons
    exact ⟨c, more, rfl, .inr hc⟩

/-- A key begins with no character that has a meaning at the beginning of a line or of a header. -/
theorem SpellsKey.exists_head (h : SpellsKey text key) :
    ∃ c more, text = c :: more ∧ isBlank c = false ∧ c ≠ '[' ∧
      ¬(c = '#' ∨ c = '\n' ∨ c = '\r') := by
  obtain ⟨c, more, rfl, hc⟩ := h.exists_cons
  refine ⟨c, more, rfl, ?_⟩
  rcases hc with hc | rfl | rfl
  · refine ⟨?_, ?_, ?_⟩
    · refine Bool.eq_false_iff.2 fun hblank => ?_
      rcases eq_of_isBlank hblank with rfl | rfl <;> exact absurd hc (by decide)
    · rintro rfl
      exact absurd hc (by decide)
    · rintro (rfl | rfl | rfl) <;> exact absurd hc (by decide)
  · decide
  · decide

theorem readKey_of_bare (hc : isBareKeyChar c = true) (text : List Char) :
    readKey (c :: text) = readBareKey (c :: text) := by
  have hquote : c ≠ '"' ∧ c ≠ '\'' := by
    constructor <;> rintro rfl <;> exact absurd hc (by decide)
  simp [readKey, hquote]

theorem readKey_of_quote (hc : c = '"' ∨ c = '\'') (text : List Char) :
    readKey (c :: text) = readLineString (c :: text) := by
  rcases hc with rfl | rfl <;> rfl

theorem SpellsKey.readKey_eq (h : SpellsKey text key)
    (hrest : ∀ c, rest.head? = some c → isBareKeyChar c = false) :
    readKey (text ++ rest) = some (key, rest) := by
  cases h with
  | bare hne h =>
    have hstop : rest.takeWhile isBareKeyChar = [] ∧ rest.dropWhile isBareKeyChar = rest := by
      cases rest with
      | nil => exact ⟨rfl, rfl⟩
      | cons c rest => simp [hrest c rfl]
    obtain ⟨c, more, rfl⟩ := List.exists_cons_of_ne_nil hne
    rw [List.cons_append, readKey_of_bare (h c (by simp)), ← List.cons_append, readBareKey,
      List.takeWhile_append_of_pos h, List.dropWhile_append_of_pos h, hstop.1, hstop.2]
    simp
  | quoted h =>
    have hread := h.readLineString_eq rest
    obtain ⟨c, more, rfl, hc⟩ := (SpellsString.line h).exists_cons
    exact (readKey_of_quote hc _).trans hread

/-- A key and the blanks around it are a path of one key, up to the sign behind it. -/
theorem SpellsKey.readPath_eq (h : SpellsKey text key) {before after : List Char}
    (hbefore : IsBlanks before) (hafter : IsBlanks after) (hc : c = '=' ∨ c = ']')
    (rest : List Char) :
    readPath (before ++ (text ++ (after ++ c :: rest))) = some ([key], c :: rest) := by
  have hblank : isBlank c = false := by rcases hc with rfl | rfl <;> rfl
  have hbehind : ∀ d, (after ++ c :: rest).head? = some d → isBareKeyChar d = false := by
    intro d hd
    cases after with
    | nil =>
      obtain rfl : c = d := by simpa using hd
      rcases hc with rfl | rfl <;> rfl
    | cons e after =>
      obtain rfl : e = d := by simpa using hd
      rcases eq_of_isBlank (hafter e (by simp)) with rfl | rfl <;> rfl
  have hread : readKey (skipBlank (before ++ (text ++ (after ++ c :: rest)))) =
      some (key, after ++ c :: rest) := by
    have hkey := h.readKey_eq hbehind
    obtain ⟨d, more, rfl, hd, -⟩ := h.exists_head
    rw [hbefore.skipBlank_append, List.cons_append, skipBlank_of_head hd, ← List.cons_append, hkey]
  have hsign : skipBlank (after ++ c :: rest) = c :: rest :=
    hafter.skipBlank_append_cons hblank rest
  refine (readKeys_of_last hread ?_ (depthLimit - 2)).trans (by rw [hsign])
  rw [hsign]
  rcases hc with rfl | rfl <;> simp

end

/-! ### Lines -/

/-- A trailer goes on to the end of its line. -/
theorem IsTrailer.nextLine?_eq_nil {trailer : List Char} (h : IsTrailer trailer) :
    nextLine? trailer = some [] := by
  have hskip : skipComment (skipBlank trailer) = [] := by
    cases h with
    | blanks h =>
      have hskip := h.skipBlank_append []
      rw [List.append_nil] at hskip
      rw [hskip]
      rfl
    | @comment blanks comment h hc =>
      have hend : (comment ++ []).dropWhile isPlain = [] := List.dropWhile_append_of_pos hc
      rw [List.append_nil] at hend
      rw [h.skipBlank_append_cons rfl, skipComment, hend]
  rw [nextLine?_eq, if_pos hskip]

theorem IsTrailer.closes {trailer : List Char} (h : IsTrailer trailer) : Closes trailer := by
  have hblanks {blanks rest : List Char} (h : IsBlanks blanks) (hrest : Closes rest) :
      Closes (blanks ++ rest) := by
    intro d hd
    cases blanks with
    | nil => exact hrest d hd
    | cons c blanks =>
      obtain rfl : c = d := by simpa using hd
      rcases eq_of_isBlank (h c (by simp)) with rfl | rfl <;> decide
  cases h with
  | blanks h => simpa using hblanks h closes_nil
  | comment h _ =>
    refine hblanks h fun d hd => ?_
    obtain rfl : '#' = d := by simpa using hd
    decide

/-- A spelled line is read as the statement that it spells. -/
theorem SpellsLine.readStatements_eq {line : List Char} {s : Statement} (h : SpellsLine line s) :
    readStatements (line.length + 1) line = some [s] := by
  suffices hread : ∃ c rest trailer, skipBlank line = c :: rest ∧
      ¬(c = '#' ∨ c = '\n' ∨ c = '\r') ∧ readStatement (c :: rest) = some (s, trailer) ∧
        IsTrailer trailer by
    obtain ⟨c, rest, trailer, hskip, hc, hs, htrailer⟩ := hread
    have hlength : 2 ≤ line.length + 1 := by
      cases line with
      | nil => simp [skipBlank] at hskip
      | cons c line => simp
    refine readStatements_mono hlength ?_
    rw [readStatements_of_statement hskip hc hs htrailer.nextLine?_eq_nil]
    rfl
  cases h with
  | @header indent before text after trailer key hindent hbefore hkey hafter htrailer =>
    have hpath := hkey.readPath_eq hbefore hafter (.inr rfl) trailer
    have hhead : (before ++ (text ++ (after ++ ']' :: trailer))).head? ≠ some '[' := by
      cases before with
      | nil =>
        obtain ⟨c, more, rfl, -, hc, -⟩ := hkey.exists_head
        simpa using hc
      | cons c before =>
        rcases eq_of_isBlank (hbefore c (by simp)) with rfl | rfl <;> simp
    refine ⟨'[', _, trailer, hindent.skipBlank_append_cons rfl _, by decide, ?_, htrailer⟩
    simp [readStatement_of_table hhead, hpath, after?]
  | @assignment indent text before after spelled trailer key v hindent hkey hbefore hafter hv
      htrailer =>
    have hpath : readPath (text ++ (before ++ '=' :: (after ++ (spelled ++ trailer)))) = _ :=
      hkey.readPath_eq isBlanks_nil hbefore (.inl rfl) _
    have hvalue : readValue (depthLimit - 1) (skipBlank (after ++ (spelled ++ trailer))) =
        some (v, trailer) := by
      rw [hafter.skipBlank_append, hv.skipBlank_append]
      exact hv.readValue_eq htrailer.closes (depthLimit - 2)
    obtain ⟨c, more, rfl, hblank, hc, hline⟩ := hkey.exists_head
    refine ⟨c, _, trailer, hindent.skipBlank_append_cons hblank _, hline, ?_, htrailer⟩
    refine (readStatement_of_assign (by simpa using hc)).trans ?_
    change (readPath (c :: more ++ (before ++ '=' :: (after ++ (spelled ++ trailer))))).bind _ = _
    rw [hpath]
    simp [after?, hvalue]

/-- A text spells statements when all its lines do: one by the grammar of lines, or any number of
them as text that can be read on its own. -/
inductive SpellsLines : List Char → List Statement → Prop where
  | readable {text : List Char} {ss : List Statement}
      (h : readStatements (text.length + 1) text = some ss) : SpellsLines text ss
  | line {line : List Char} {s : Statement} (h : SpellsLine line s) : SpellsLines line [s]
  | append {front newline back : List Char} {before after : List Statement}
      (hfront : SpellsLines front before) (hn : SpellsNewline newline)
      (hback : SpellsLines back after) :
      SpellsLines (front ++ (newline ++ back)) (before ++ after)

section
variable {text : List Char} {ss : List Statement}

theorem SpellsLines.readStatements_eq (h : SpellsLines text ss) :
    readStatements (text.length + 1) text = some ss := by
  induction h with
  | readable h => exact h
  | line h => exact h.readStatements_eq
  | @append front newline back before after _ hn _ ihfront ihback =>
    have hlength : front.length + 1 + (back.length + 1) ≤
        (front ++ (newline ++ back)).length + 1 := by
      obtain ⟨d, more, rfl, -⟩ := hn.exists_eq_cons
      simp
      omega
    exact readStatements_mono hlength (readStatements_lines hn ihfront ihback)

theorem readStatements_mark (fuel : Nat) (text : List Char) :
    readStatements fuel ('\uFEFF' :: text) = none := by
  cases fuel with
  | zero => rfl
  | succ fuel =>
    have hpath : readPath ('\uFEFF' :: text) = none := rfl
    have hs : readStatement ('\uFEFF' :: text) = none := by
      rw [readStatement_of_assign (by simp), hpath]
      rfl
    simp [readStatements, skipBlank, isBlank, hs]

/-- The statements of a text do not change with a byte order mark before it. -/
theorem SpellsLines.statements?_eq (h : SpellsLines text ss) :
    statements? text = some ss ∧ statements? ('\uFEFF' :: text) = some ss := by
  refine ⟨?_, h.readStatements_eq⟩
  unfold statements?
  split
  · next rest =>
    have hread := h.readStatements_eq
    rw [readStatements_mark] at hread
    simp at hread
  · exact h.readStatements_eq

end

theorem exists_spellsLines {ss : List Statement} (h : ∀ s ∈ ss, HasLine s) :
    ∃ text, SpellsLines text ss := by
  induction ss with
  | nil => exact ⟨[], .readable rfl⟩
  | cons s ss ih =>
    obtain ⟨⟨line, hline⟩, hss⟩ := List.forall_mem_cons.1 h
    obtain ⟨text, htext⟩ := ih hss
    exact ⟨_, .append (.line hline) .feed htext⟩

end PhraseArithmetic.Toml
