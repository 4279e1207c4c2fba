import PhraseArithmetic.Proofs.Toml.LineEnds

/-!
# Reading with more lines behind

A string, an array or a comment inside an array may go on over a line end, so its reader does not
stop there. What it has read to its end it reads again in front of further lines.
-/
namespace PhraseArithmetic.Toml

/-- What is read from a text is read in front of further lines too. -/
def ReadsOn {α : Type} (read : Reader α) : Prop :=
  ∀ (text : List Char) (a : α) (rest : List Char), read text = some (a, rest) →
    ∀ (c : Char) (tail : List Char), IsLineEnd c →
      read (text ++ c :: tail) = some (a, rest ++ c :: tail)

section
variable {c : Char} {tail : List Char}

namespace Quotation
variable {q : Quotation}

theorem closedBefore?_of_closedAtEnd? (hmark : q.mark = '"' ∨ q.mark = '\'') (hc : IsLineEnd c)
    {phase : QuotationPhase} {reversed : List Char} {s : String}
    (h : q.closedAtEnd? phase reversed = some s) : q.closedBefore? phase reversed c = some s := by
  have hne : c ≠ q.mark := by
    rcases hc with rfl | rfl <;> rcases hmark with hmark | hmark <;> rw [hmark] <;> decide
  cases phase with
  | content marks =>
    obtain ⟨hwidth, hs⟩ := Option.ite_none_right_eq_some.1 h
    simp [closedBefore?, closes, hwidth, hne, Option.some.inj hs]
  | escape => simp [closedAtEnd?] at h
  | scalar => simp [closedAtEnd?] at h
  | carriage => simp [closedAtEnd?] at h
  | fold => simp [closedAtEnd?] at h
  | folded => simp [closedAtEnd?] at h

theorem readsOn_read (hmark : q.mark = '"' ∨ q.mark = '\'') (phase : QuotationPhase)
    (reversed : List Char) : ReadsOn (q.read phase reversed) := by
  intro text s rest h c tail hc
  induction text generalizing phase reversed with
  | nil =>
    obtain ⟨s', hs', heq⟩ := Option.map_eq_some_iff.1 h
    obtain ⟨rfl, rfl⟩ := Prod.mk.inj heq
    simp [read, closedBefore?_of_closedAtEnd? hmark hc hs']
  | cons d text ih =>
    rw [List.cons_append, read]
    rw [read] at h
    cases hclosed : q.closedBefore? phase reversed d with
    | some s' =>
      rw [hclosed] at h
      obtain ⟨rfl, rfl⟩ := Prod.mk.inj (Option.some.inj h)
      rfl
    | none =>
      cases hstep : q.step phase reversed d with
      | none => simp [hclosed, hstep] at h
      | some p =>
        simp only [hclosed, hstep] at h
        simp only [ih p.1 p.2 h]

end Quotation

theorem readsOn_readLineString : ReadsOn readLineString := by
  intro text s rest h c tail hc
  unfold readLineString at h
  split at h
  · exact Quotation.readsOn_read (.inl rfl) _ _ _ _ _ h _ _ hc
  · exact Quotation.readsOn_read (.inr rfl) _ _ _ _ _ h _ _ hc
  · simp at h

/-- Of an opened text, one more line is not the line break that is dropped. -/
theorem dropNewline_append {text : List Char} (hne : text ≠ []) (hcarriage : text ≠ ['\r']) :
    dropNewline (text ++ c :: tail) = dropNewline text ++ c :: tail := by
  rcases text with - | ⟨d, - | ⟨e, text⟩⟩
  · exact absurd rfl hne
  · have hd : d ≠ '\r' := by simpa using hcarriage
    by_cases hd' : d = '\n'
    · subst hd'
      rfl
    · simp [dropNewline, afterNewline?, hd, hd']
  · by_cases hd : d = '\n'
    · subst hd
      rfl
    · by_cases hde : d = '\r' ∧ e = '\n'
      · obtain ⟨rfl, rfl⟩ := hde
        rfl
      · have hnone (rest : List Char) : afterNewline? (d :: e :: rest) = none := by
          unfold afterNewline?
          split
          · next h => exact absurd (List.cons.inj h).1 hd
          · next h => simp_all
          · rfl
        simp [dropNewline, hnone]

theorem Quotation.mark_of_lines {q : Quotation} (hq : q = .basicLines ∨ q = .literalLines) :
    q.mark = '"' ∨ q.mark = '\'' := by
  rcases hq with rfl | rfl
  · exact .inl rfl
  · exact .inr rfl

theorem Quotation.read_dropNewline {q : Quotation} (hq : q = .basicLines ∨ q = .literalLines)
    (hc : IsLineEnd c) {text rest : List Char} {s : String}
    (h : q.read (.content 0) [] (dropNewline text) = some (s, rest)) :
    q.read (.content 0) [] (dropNewline (text ++ c :: tail)) = some (s, rest ++ c :: tail) := by
  have hunclosed (text : List Char) (htext : text = [] ∨ text = ['\r']) :
      q.read (.content 0) [] (dropNewline text) = none := by
    rcases hq with rfl | rfl <;> rcases htext with rfl | rfl <;> rfl
  have hne : text ≠ [] := fun htext => by simp [hunclosed text (.inl htext)] at h
  have hcarriage : text ≠ ['\r'] := fun htext => by simp [hunclosed text (.inr htext)] at h
  rw [dropNewline_append hne hcarriage]
  exact readsOn_read (mark_of_lines hq) _ _ _ _ _ h _ _ hc

theorem readsOn_readString : ReadsOn readString := by
  intro text s rest h c tail hc
  unfold readString at h
  split at h
  · exact Quotation.read_dropNewline (.inl rfl) hc h
  · exact Quotation.read_dropNewline (.inr rfl) hc h
  · next hdouble hsingle =>
    have hline := readsOn_readLineString _ _ _ h _ tail hc
    unfold readString
    split
    · next heq =>
      obtain ⟨more, rfl⟩ := exists_eq_append_of_lineEnd hc ['"', '"', '"']
        (by simp [IsLineEnd]) heq
      exact (hdouble _ rfl).elim
    · next heq =>
      obtain ⟨more, rfl⟩ := exists_eq_append_of_lineEnd hc ['\'', '\'', '\'']
        (by simp [IsLineEnd]) heq
      exact (hsingle _ rfl).elim
    · exact hline

theorem readsOn_readKey : ReadsOn readKey := by
  intro text key rest h c tail hc
  cases text with
  | nil => simp [readKey, readBareKey] at h
  | cons d text =>
    by_cases hquote : d = '"' ∨ d = '\''
    · rcases hquote with rfl | rfl <;> simp only [readKey, List.cons_append] at h ⊢ <;>
        exact readsOn_readLineString _ _ _ h _ tail hc
    · rw [not_or] at hquote
      have hbare : readBareKey (d :: text ++ c :: tail) = _ := readBareKey_append hc (d :: text)
      simp [readKey, hquote] at h ⊢
      rw [h] at hbare
      exact hbare

theorem readKeys_of_point {text more rest : List Char} {key : String}
    (h : readKey (skipBlank text) = some (key, more)) (hmore : skipBlank more = '.' :: rest)
    (fuel : Nat) :
    readKeys (fuel + 1) text = (readKeys fuel rest).map fun p => (key :: p.1, p.2) := by
  simp only [readKeys, h, hmore, Option.bind_eq_bind, Option.bind_some]
  cases readKeys fuel rest <;> rfl

theorem readKeys_of_last {text more : List Char} {key : String}
    (h : readKey (skipBlank text) = some (key, more)) (hmore : (skipBlank more).head? ≠ some '.')
    (fuel : Nat) : readKeys (fuel + 1) text = some ([key], skipBlank more) := by
  simp only [readKeys, h, Option.bind_eq_bind, Option.bind_some]
  split
  · next rest hrest => simp [hrest] at hmore
  · rfl

theorem readsOn_readKeys (fuel : Nat) : ReadsOn (readKeys fuel) := by
  intro text keys rest h c tail hc
  have hpoint : c ≠ '.' := by rcases hc with rfl | rfl <;> decide
  induction fuel generalizing text keys with
  | zero => simp [readKeys] at h
  | succ fuel ih =>
    cases hkey : readKey (skipBlank text) with
    | none => simp [readKeys, hkey] at h
    | some p =>
      obtain ⟨key, more⟩ := p
      have hkey' := readsOn_readKey _ _ _ hkey c tail hc
      rw [← skipBlank_append hc] at hkey'
      have hmore' : skipBlank (more ++ c :: tail) = _ := skipBlank_append hc more
      by_cases hlast : (skipBlank more).head? = some '.'
      · obtain ⟨more, hmore⟩ := List.head?_eq_some_iff.1 hlast
        rw [readKeys_of_point hkey hmore] at h
        obtain ⟨p, hp, heq⟩ := Option.map_eq_some_iff.1 h
        obtain ⟨rfl, rfl⟩ := Prod.mk.inj heq
        rw [hmore, List.cons_append] at hmore'
        rw [readKeys_of_point hkey' hmore', ih _ _ hp]
        rfl
      · rw [readKeys_of_last hkey hlast] at h
        obtain ⟨rfl, rfl⟩ := Prod.mk.inj (Option.some.inj h)
        have hlast' : (skipBlank (more ++ c :: tail)).head? ≠ some '.' := by
          rw [hmore']
          cases hhead : skipBlank more with
          | nil => simpa using hpoint
          | cons d rest => simpa [hhead] using hlast
        rw [readKeys_of_last hkey' hlast', hmore']

/-! ### Values -/

theorem afterPrefix?_eq_some_iff {beginning text rest : List Char} :
    afterPrefix? beginning text = some rest ↔ text = beginning ++ rest := by
  rw [afterPrefix?, Option.ite_none_right_eq_some, List.isPrefixOf_iff_prefix]
  constructor
  · rintro ⟨⟨rest', rfl⟩, h⟩
    simpa using h
  · rintro rfl
    simp

theorem ReadsOn.map {α β : Type} {read : Reader α} (h : ReadsOn read) (f : α → β) :
    ReadsOn fun text => (read text).map fun p => (f p.1, p.2) := by
  intro text b rest hread c tail hc
  obtain ⟨⟨a, rest'⟩, ha, heq⟩ := Option.map_eq_some_iff.1 hread
  obtain ⟨rfl, rfl⟩ := Prod.mk.inj heq
  simp [h _ _ _ ha c tail hc]

theorem readScalar_of_quote {d : Char} (hd : d = '"' ∨ d = '\'') (text : List Char) :
    readScalar (d :: text) = (readString (d :: text)).map fun p => (.text p.1, p.2) := by
  rcases hd with rfl | rfl <;> rfl

/-- What begins with no mark of a string or a truth value. -/
theorem readScalar_of_head {d : Char} (hquote : ¬(d = '"' ∨ d = '\''))
    (htruth : ¬(d = 't' ∨ d = 'f')) (text : List Char) :
    readScalar (d :: text) = ((afterMoment? (d :: text)).map fun rest => (.moment, rest)).or
      ((readNumber (d :: text)).map fun p => (p.1.toValue, p.2)) := by
  obtain ⟨hdouble, hsingle⟩ := not_or.1 hquote
  obtain ⟨ht, hf⟩ := not_or.1 htruth
  simp [readScalar, hdouble, hsingle, ht, hf]
  cases afterMoment? (d :: text) <;> rfl

theorem readsOn_readScalar : ReadsOn readScalar := by
  intro text v rest h c tail hc
  cases text with
  | nil => exact absurd h (by simp [show readScalar [] = none from rfl])
  | cons d text =>
    by_cases hquote : d = '"' ∨ d = '\''
    · rw [readScalar_of_quote hquote] at h
      rw [List.cons_append, readScalar_of_quote hquote]
      exact readsOn_readString.map Value.text _ _ _ h c tail hc
    · by_cases htruth : d = 't' ∨ d = 'f'
      · have hword (word : List Char) (b : Bool) (hw : (afterPrefix? word (d :: text)).map
            (Value.boolean b, ·) = some (v, rest)) :
            (afterPrefix? word (d :: text ++ c :: tail)).map (Value.boolean b, ·) =
              some (v, rest ++ c :: tail) := by
          obtain ⟨more, hmore, heq⟩ := Option.map_eq_some_iff.1 hw
          obtain ⟨rfl, rfl⟩ := Prod.mk.inj heq
          rw [afterPrefix?_eq_some_iff] at hmore
          rw [hmore, List.append_assoc, afterPrefix?_eq_some_iff.2 rfl]
          rfl
        rcases htruth with rfl | rfl
        · exact hword _ _ h
        · exact hword _ _ h
      · rw [readScalar_of_head hquote htruth] at h
        rw [List.cons_append, readScalar_of_head hquote htruth, ← List.cons_append,
          afterMoment?_append hc, readNumber_append hc]
        cases hm : afterMoment? (d :: text) with
        | some more =>
          obtain ⟨rfl, rfl⟩ : Value.moment = v ∧ more = rest := by simpa [hm] using h
          rfl
        | none =>
          rw [hm] at h
          obtain ⟨⟨n, more⟩, hn, heq⟩ := Option.map_eq_some_iff.1 h
          obtain ⟨rfl, rfl⟩ := Prod.mk.inj heq
          simp [hn]

/-- What a character other than a carriage return does to the layout in front of a text. -/
theorem skipLayoutFrom_cons {d : Char} (hd : d ≠ '\r') (inComment : Bool) (text : List Char) :
    skipLayoutFrom inComment (d :: text) =
      if d = '\n' then skipLayoutFrom false text
      else if inComment then if isPlain d then skipLayoutFrom true text else d :: text
      else if isBlank d then skipLayoutFrom false text
      else if d = '#' then skipLayoutFrom true text
      else d :: text := by
  rw [skipLayoutFrom.eq_def]
  split
  · next heq => simp at heq
  · next heq => exact absurd (List.cons.inj heq).1 hd
  · next heq =>
    obtain ⟨rfl, rfl⟩ := List.cons.inj heq
    rfl

theorem skipLayoutFrom_append {inComment : Bool} {text rest : List Char} {d : Char}
    (hd : ¬IsLineEnd d) (h : skipLayoutFrom inComment text = d :: rest) :
    skipLayoutFrom inComment (text ++ c :: tail) = d :: rest ++ c :: tail := by
  fun_induction skipLayoutFrom inComment text with
  | case1 => simp at h
  | case2 inComment text ih => simp [skipLayoutFrom, ih h]
  | case3 inComment text _ ih =>
    rw [List.cons_append, skipLayoutFrom_cons (by decide), if_pos rfl, ih h]
  | case4 e text _ hline hplain ih =>
    have he : e ≠ '\r' := by
      rintro rfl
      exact absurd hplain (by decide)
    rw [List.cons_append, skipLayoutFrom_cons he, if_neg hline, if_pos rfl, if_pos hplain, ih h]
  | case5 e text _ hline hplain =>
    obtain ⟨rfl, rfl⟩ := List.cons.inj h
    rw [List.cons_append, skipLayoutFrom_cons fun he => hd (.inr he), if_neg hline, if_pos rfl,
      if_neg hplain]
  | case6 inComment e text _ hline hcomment hblank ih =>
    have he : e ≠ '\r' := by
      rintro rfl
      exact absurd hblank (by decide)
    rw [List.cons_append, skipLayoutFrom_cons he, if_neg hline, if_neg hcomment, if_pos hblank,
      ih h]
  | case7 inComment text hcomment _ hline hblank ih =>
    rw [List.cons_append, skipLayoutFrom_cons (by decide), if_neg hline, if_neg hcomment,
      if_neg hblank, if_pos rfl, ih h]
  | case8 inComment e text _ hline hcomment hblank hhash =>
    obtain ⟨rfl, rfl⟩ := List.cons.inj h
    rw [List.cons_append, skipLayoutFrom_cons fun he => hd (.inr he), if_neg hline,
      if_neg hcomment, if_neg hblank, if_neg hhash]

/-- A reader of values takes nothing from a text that is at its end or at a line end. -/
def StopsAtLineEnd {α : Type} (read : Reader α) : Prop :=
  ∀ text : List Char, (∀ d, text.head? = some d → IsLineEnd d) → read text = none

theorem skipLayout_append_of_read {item : Reader Value} (hstops : StopsAtLineEnd item)
    {text rest : List Char} {v : Value} (h : item (skipLayout text) = some (v, rest)) :
    skipLayout (text ++ c :: tail) = skipLayout text ++ c :: tail := by
  have hhead : ∃ d, (skipLayout text).head? = some d ∧ ¬IsLineEnd d := by
    by_contra hnot
    push Not at hnot
    simp [hstops _ hnot] at h
  obtain ⟨d, hhead, hd⟩ := hhead
  obtain ⟨more, hmore⟩ := List.head?_eq_some_iff.1 hhead
  rw [hmore]
  exact skipLayoutFrom_append hd hmore

theorem readElements_of_end {item : Reader Value} {text rest : List Char}
    (h : skipLayout text = ']' :: rest) (fuel : Nat) :
    readElements item (fuel + 1) text = some ([], rest) := by
  simp only [readElements, h]

section
variable {item : Reader Value} {text more rest : List Char} {v : Value}

theorem readElements_of_last (hend : (skipLayout text).head? ≠ some ']')
    (h : item (skipLayout text) = some (v, more)) (hmore : skipLayout more = ']' :: rest)
    (fuel : Nat) : readElements item (fuel + 1) text = some ([v], rest) := by
  simp only [readElements]
  split
  · next hrest => simp [hrest] at hend
  · simp only [h, Option.bind_eq_bind, Option.bind_some, hmore]

theorem readElements_of_comma (hend : (skipLayout text).head? ≠ some ']')
    (h : item (skipLayout text) = some (v, more)) (hmore : skipLayout more = ',' :: rest)
    (fuel : Nat) :
    readElements item (fuel + 1) text =
      (readElements item fuel rest).map fun p => (v :: p.1, p.2) := by
  simp only [readElements]
  split
  · next hrest => simp [hrest] at hend
  · simp only [h, Option.bind_eq_bind, Option.bind_some, hmore]
    cases readElements item fuel rest <;> rfl

/-- How elements are read: none, one that is the last, or one with a comma behind it. -/
theorem readElements_cases {fuel : Nat} {vs : List Value}
    (h : readElements item (fuel + 1) text = some (vs, rest)) :
    (vs = [] ∧ skipLayout text = ']' :: rest) ∨
      (skipLayout text).head? ≠ some ']' ∧ ∃ v more, item (skipLayout text) = some (v, more) ∧
        ((vs = [v] ∧ skipLayout more = ']' :: rest) ∨
          ∃ vs' more', vs = v :: vs' ∧ skipLayout more = ',' :: more' ∧
            readElements item fuel more' = some (vs', rest)) := by
  by_cases hend : (skipLayout text).head? = some ']'
  · obtain ⟨more, hmore⟩ := List.head?_eq_some_iff.1 hend
    rw [readElements_of_end hmore] at h
    obtain ⟨rfl, rfl⟩ := Prod.mk.inj (Option.some.inj h)
    exact .inl ⟨rfl, hmore⟩
  · refine .inr ⟨hend, ?_⟩
    simp only [readElements] at h
    split at h
    · next hrest => simp [hrest] at hend
    · obtain ⟨⟨v, more⟩, hv, h⟩ := Option.bind_eq_some_iff.1 h
      refine ⟨v, more, hv, ?_⟩
      simp only at h
      split at h
      · next more' hmore =>
        obtain ⟨⟨vs', rest'⟩, hvs, heq⟩ := Option.bind_eq_some_iff.1 h
        obtain ⟨rfl, rfl⟩ := Prod.mk.inj (Option.some.inj heq)
        exact .inr ⟨vs', more', rfl, hmore, hvs⟩
      · next hmore =>
        obtain ⟨rfl, rfl⟩ := Prod.mk.inj (Option.some.inj h)
        exact .inl ⟨rfl, hmore⟩
      · simp at h

theorem readElements_mono {fuel fuel' : Nat} (hle : fuel ≤ fuel') {vs : List Value}
    (h : readElements item fuel text = some (vs, rest)) :
    readElements item fuel' text = some (vs, rest) := by
  induction fuel generalizing fuel' text vs with
  | zero => simp [readElements] at h
  | succ fuel ih =>
    obtain ⟨fuel', rfl⟩ : ∃ n, fuel' = n + 1 := ⟨fuel' - 1, by omega⟩
    rcases readElements_cases h with ⟨rfl, hend⟩ | ⟨hend, v, more, hv, hlast | hcomma⟩
    · exact readElements_of_end hend fuel'
    · obtain ⟨rfl, hmore⟩ := hlast
      exact readElements_of_last hend hv hmore fuel'
    · obtain ⟨vs', more', rfl, hmore, hvs⟩ := hcomma
      rw [readElements_of_comma hend hv hmore, ih (by omega) hvs]
      rfl

end

theorem readsOn_readElements {item : Reader Value} (hitem : ReadsOn item)
    (hstops : StopsAtLineEnd item) (fuel : Nat) : ReadsOn (readElements item fuel) := by
  intro text vs rest h c tail hc
  induction fuel generalizing text vs with
  | zero => simp [readElements] at h
  | succ fuel ih =>
    have hbracket : ¬IsLineEnd ']' := by simp [IsLineEnd]
    have hcomma : ¬IsLineEnd ',' := by simp [IsLineEnd]
    rcases readElements_cases h with ⟨rfl, hend⟩ | ⟨hend, v, more, hv, hcases⟩
    · exact readElements_of_end (skipLayoutFrom_append hbracket hend) fuel
    · have hlayout : skipLayout (text ++ c :: tail) = _ := skipLayout_append_of_read hstops hv
      have hv' := hitem _ _ _ hv c tail hc
      rw [← hlayout] at hv'
      have hend' : (skipLayout (text ++ c :: tail)).head? ≠ some ']' := by
        rw [hlayout]
        cases hhead : skipLayout text with
        | nil =>
          rintro ⟨⟩
          exact hbracket hc
        | cons d more => simpa [hhead] using hend
      rcases hcases with ⟨rfl, hmore⟩ | ⟨vs', more', rfl, hmore, hvs⟩
      · exact readElements_of_last hend' hv' (skipLayoutFrom_append hbracket hmore) fuel
      · rw [readElements_of_comma hend' hv' (skipLayoutFrom_append hcomma hmore)]
        simp only [List.append_eq, ih _ _ hvs, Option.map_some]

section
variable {item : Reader Value} {text afterPath afterSign more rest : List Char}
  {path : List String} {v : Value}

theorem readAssignments_of_last (hpath : readPath text = some (path, afterPath))
    (hsign : after? '=' afterPath = some afterSign)
    (hv : item (skipBlank afterSign) = some (v, more)) (hmore : skipBlank more = '\x7d' :: rest)
    (fuel : Nat) : readAssignments item (fuel + 1) text = some ([(path, v)], rest) := by
  simp only [readAssignments, hpath, hsign, hv, Option.bind_eq_bind, Option.bind_some, hmore]

theorem readAssignments_of_comma (hpath : readPath text = some (path, afterPath))
    (hsign : after? '=' afterPath = some afterSign)
    (hv : item (skipBlank afterSign) = some (v, more)) (hmore : skipBlank more = ',' :: rest)
    (fuel : Nat) :
    readAssignments item (fuel + 1) text =
      (readAssignments item fuel rest).map fun p => ((path, v) :: p.1, p.2) := by
  simp only [readAssignments, hpath, hsign, hv, Option.bind_eq_bind, Option.bind_some, hmore]
  cases readAssignments item fuel rest <;> rfl

theorem readAssignments_cases {fuel : Nat} {body : List (List String × Value)}
    (h : readAssignments item (fuel + 1) text = some (body, rest)) :
    ∃ path afterPath afterSign v more, readPath text = some (path, afterPath) ∧
      after? '=' afterPath = some afterSign ∧ item (skipBlank afterSign) = some (v, more) ∧
        ((body = [(path, v)] ∧ skipBlank more = '\x7d' :: rest) ∨
          ∃ body' more', body = (path, v) :: body' ∧ skipBlank more = ',' :: more' ∧
            readAssignments item fuel more' = some (body', rest)) := by
  simp only [readAssignments] at h
  obtain ⟨⟨path, afterPath⟩, hpath, h⟩ := Option.bind_eq_some_iff.1 h
  obtain ⟨afterSign, hsign, h⟩ := Option.bind_eq_some_iff.1 h
  obtain ⟨⟨v, more⟩, hv, h⟩ := Option.bind_eq_some_iff.1 h
  refine ⟨path, afterPath, afterSign, v, more, hpath, hsign, hv, ?_⟩
  simp only at h
  split at h
  · next more' hmore =>
    obtain ⟨⟨body', rest'⟩, hbody, heq⟩ := Option.bind_eq_some_iff.1 h
    obtain ⟨rfl, rfl⟩ := Prod.mk.inj (Option.some.inj heq)
    exact .inr ⟨body', more', rfl, hmore, hbody⟩
  · next hmore =>
    obtain ⟨rfl, rfl⟩ := Prod.mk.inj (Option.some.inj h)
    exact .inl ⟨rfl, hmore⟩
  · simp at h

theorem readAssignments_mono {fuel fuel' : Nat} (hle : fuel ≤ fuel')
    {body : List (List String × Value)}
    (h : readAssignments item fuel text = some (body, rest)) :
    readAssignments item fuel' text = some (body, rest) := by
  induction fuel generalizing fuel' text body with
  | zero => simp [readAssignments] at h
  | succ fuel ih =>
    obtain ⟨fuel', rfl⟩ : ∃ n, fuel' = n + 1 := ⟨fuel' - 1, by omega⟩
    obtain ⟨path, afterPath, afterSign, v, more, hpath, hsign, hv, hcases⟩ :=
      readAssignments_cases h
    rcases hcases with ⟨rfl, hmore⟩ | ⟨body', more', rfl, hmore, hbody⟩
    · exact readAssignments_of_last hpath hsign hv hmore fuel'
    · rw [readAssignments_of_comma hpath hsign hv hmore, ih (by omega) hbody]
      rfl

end

theorem readsOn_readAssignments {item : Reader Value} (hitem : ReadsOn item) (fuel : Nat) :
    ReadsOn (readAssignments item fuel) := by
  intro text body rest h c tail hc
  induction fuel generalizing text body with
  | zero => simp [readAssignments] at h
  | succ fuel ih =>
    have hequals : ¬IsLineEnd '=' := by simp [IsLineEnd]
    obtain ⟨path, afterPath, afterSign, v, more, hpath, hsign, hv, hcases⟩ :=
      readAssignments_cases h
    have hpath' := readsOn_readKeys _ _ _ _ hpath c tail hc
    have hsign' : after? '=' (afterPath ++ c :: tail) = some (afterSign ++ c :: tail) := by
      rw [after?_append hequals hc, hsign]
      rfl
    have hv' := hitem _ _ _ hv c tail hc
    rw [← skipBlank_append hc] at hv'
    have hmore' : skipBlank (more ++ c :: tail) = _ := skipBlank_append hc more
    rcases hcases with ⟨rfl, hmore⟩ | ⟨body', more', rfl, hmore, hbody⟩
    · rw [hmore] at hmore'
      exact readAssignments_of_last hpath' hsign' hv' hmore' fuel
    · rw [hmore] at hmore'
      rw [readAssignments_of_comma hpath' hsign' hv' hmore', List.append_eq, ih _ _ hbody]
      rfl

theorem readInlineTable_of_head {item : Reader Value} {text : List Char}
    (h : (skipBlank text).head? ≠ some '\x7d') :
    readInlineTable item text = (readAssignments item (skipBlank text).length (skipBlank text)).bind
      fun p => (Entries.assignAll [] p.1).map fun es => (.table .inline es, p.2) := by
  unfold readInlineTable
  split
  · next heq => simp [heq] at h
  · simp only [Option.bind_eq_bind]
    congr 1
    funext p
    cases Entries.assignAll [] p.1 <;> rfl

theorem readsOn_readInlineTable {item : Reader Value} (hitem : ReadsOn item) :
    ReadsOn (readInlineTable item) := by
  intro text v rest h c tail hc
  have hblank : skipBlank (text ++ c :: tail) = _ := skipBlank_append hc text
  by_cases hend : (skipBlank text).head? = some '\x7d'
  · obtain ⟨more, hmore⟩ := List.head?_eq_some_iff.1 hend
    rw [hmore, List.cons_append] at hblank
    simp only [readInlineTable, hmore, hblank] at h ⊢
    obtain ⟨rfl, rfl⟩ := Prod.mk.inj (Option.some.inj h)
    rfl
  · rw [readInlineTable_of_head hend] at h
    obtain ⟨⟨body, more⟩, hbody, h⟩ := Option.bind_eq_some_iff.1 h
    obtain ⟨es, hes, heq⟩ := Option.map_eq_some_iff.1 h
    obtain ⟨rfl, rfl⟩ := Prod.mk.inj heq
    have hend' : (skipBlank (text ++ c :: tail)).head? ≠ some '\x7d' := by
      rw [hblank]
      cases hhead : skipBlank text with
      | nil => rcases hc with rfl | rfl <;> simp
      | cons d more => simpa [hhead] using hend
    have hbody' := readsOn_readAssignments hitem _ _ _ _ hbody c tail hc
    have hlength : (skipBlank text).length ≤ (skipBlank text ++ c :: tail).length := by simp
    rw [readInlineTable_of_head hend', hblank, readAssignments_mono hlength hbody']
    simp [hes]

theorem stopsAtLineEnd_readScalar : StopsAtLineEnd readScalar := by
  intro text h
  cases text with
  | nil => rfl
  | cons d text =>
    have hd := h d rfl
    have hquote : ¬(d = '"' ∨ d = '\'') := by rcases hd with rfl | rfl <;> decide
    have htruth : ¬(d = 't' ∨ d = 'f') := by rcases hd with rfl | rfl <;> decide
    have hmoment : afterMoment? (d :: text) = none := afterMoment?_append hd []
    have hnumber : readNumber (d :: text) = none := readNumber_append hd []
    rw [readScalar_of_head hquote htruth, hmoment, hnumber]
    rfl

theorem readValue_of_scalar {d : Char} (hd : ¬(d = '[' ∨ d = '\x7b')) (depth : Nat)
    (text : List Char) : readValue depth (d :: text) = readScalar (d :: text) := by
  obtain ⟨hbracket, hbrace⟩ := not_or.1 hd
  cases depth <;> simp [readValue, hbracket, hbrace]

theorem stopsAtLineEnd_readValue (depth : Nat) : StopsAtLineEnd (readValue depth) := by
  intro text h
  cases text with
  | nil => cases depth <;> rfl
  | cons d text =>
    have hopen : ¬(d = '[' ∨ d = '\x7b') := by rcases h d rfl with rfl | rfl <;> decide
    rw [readValue_of_scalar hopen]
    exact stopsAtLineEnd_readScalar _ h

theorem readsOn_readValue (depth : Nat) : ReadsOn (readValue depth) := by
  induction depth with
  | zero =>
    intro text v rest h c tail hc
    cases text with
    | nil => simp [readValue] at h
    | cons d text =>
      by_cases hopen : d = '[' ∨ d = '\x7b'
      · rcases hopen with rfl | rfl <;> simp [readValue] at h
      · rw [readValue_of_scalar hopen] at h
        rw [List.cons_append, readValue_of_scalar hopen]
        exact readsOn_readScalar _ _ _ h c tail hc
  | succ depth ih =>
    intro text v rest h c tail hc
    cases text with
    | nil => simp [readValue] at h
    | cons d text =>
      by_cases hopen : d = '[' ∨ d = '\x7b'
      · rcases hopen with rfl | rfl
        · simp only [readValue] at h
          obtain ⟨⟨vs, more⟩, hvs, heq⟩ := Option.map_eq_some_iff.1 h
          obtain ⟨rfl, rfl⟩ := Prod.mk.inj heq
          have hvs' := readsOn_readElements ih (stopsAtLineEnd_readValue depth) _ _ _ _ hvs c tail
            hc
          have hlength : ('[' :: text).length ≤ ('[' :: text ++ c :: tail).length := by simp
          simp only [List.cons_append, readValue] at hlength ⊢
          rw [readElements_mono hlength hvs']
          rfl
        · simp only [readValue, List.cons_append] at h ⊢
          exact readsOn_readInlineTable ih _ _ _ h c tail hc
      · rw [readValue_of_scalar hopen] at h
        rw [List.cons_append, readValue_of_scalar hopen]
        exact readsOn_readScalar _ _ _ h c tail hc

end
end PhraseArithmetic.Toml
