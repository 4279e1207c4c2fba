import PhraseArithmetic.Proofs.Toml.FurtherLines

/-!
# Lines are read one after the other

The statements of a text are those of its front lines and then those of its back lines, wherever
the text is cut at a line end into two that can be read.
-/
namespace PhraseArithmetic.Toml

section
variable {c : Char} {tail : List Char}

theorem readStatement_of_element (rest : List Char) :
    readStatement ('[' :: '[' :: rest) = (readPath rest).bind fun p =>
      (after? ']' p.2).bind fun more => (after? ']' more).map (.element p.1, ·) := by
  simp only [readStatement, Option.bind_eq_bind, Option.map_eq_bind, Function.comp_def]

theorem readStatement_of_table {rest : List Char} (h : rest.head? ≠ some '[') :
    readStatement ('[' :: rest) = (readPath rest).bind fun p =>
      (after? ']' p.2).map (.table p.1, ·) := by
  rw [readStatement]
  · simp only [Option.bind_eq_bind, Option.map_eq_bind, Function.comp_def]
  · rintro more rfl
    simp at h

theorem readStatement_of_assign {text : List Char} (h : text.head? ≠ some '[') :
    readStatement text = (readPath text).bind fun p =>
      (after? '=' p.2).bind fun rest =>
        (readValue (depthLimit - 1) (skipBlank rest)).map fun q => (.assign p.1 q.1, q.2) := by
  rw [readStatement]
  · simp only [Option.bind_eq_bind, Option.map_eq_bind, Function.comp_def]
  · rintro more rfl
    simp at h
  · rintro more rfl
    simp at h

theorem head?_append_ne {d : Char} (hc : IsLineEnd c) (hd : ¬IsLineEnd d) {text : List Char}
    (h : text.head? ≠ some d) : (text ++ c :: tail).head? ≠ some d := by
  cases text with
  | nil =>
    rintro ⟨⟩
    exact hd hc
  | cons e text => exact h

theorem readsOn_readStatement : ReadsOn readStatement := by
  intro text s rest h c tail hc
  have hopen : ¬IsLineEnd '[' := by simp [IsLineEnd]
  have hclose : ¬IsLineEnd ']' := by simp [IsLineEnd]
  have hequals : ¬IsLineEnd '=' := by simp [IsLineEnd]
  have hpaths (text rest : List Char) (path : List String) (h : readPath text = some (path, rest)) :
      readPath (text ++ c :: tail) = some (path, rest ++ c :: tail) :=
    readsOn_readKeys _ _ _ _ h c tail hc
  by_cases hheader : text.head? = some '['
  · obtain ⟨text, rfl⟩ := List.head?_eq_some_iff.1 hheader
    by_cases helement : text.head? = some '['
    · obtain ⟨text, rfl⟩ := List.head?_eq_some_iff.1 helement
      rw [readStatement_of_element] at h
      obtain ⟨⟨path, more⟩, hpath, h⟩ := Option.bind_eq_some_iff.1 h
      obtain ⟨more', hmore, h⟩ := Option.bind_eq_some_iff.1 h
      obtain ⟨rest, hrest, heq⟩ := Option.map_eq_some_iff.1 h
      obtain ⟨rfl, rfl⟩ := Prod.mk.inj heq
      simp only [List.cons_append, readStatement_of_element]
      simp [hpaths _ _ _ hpath, after?_append hclose hc, hmore, hrest]
    · rw [readStatement_of_table helement] at h
      obtain ⟨⟨path, more⟩, hpath, h⟩ := Option.bind_eq_some_iff.1 h
      obtain ⟨rest, hrest, heq⟩ := Option.map_eq_some_iff.1 h
      obtain ⟨rfl, rfl⟩ := Prod.mk.inj heq
      rw [List.cons_append, readStatement_of_table (head?_append_ne hc hopen helement)]
      simp [hpaths _ _ _ hpath, after?_append hclose hc, hrest]
  · rw [readStatement_of_assign hheader] at h
    obtain ⟨⟨path, more⟩, hpath, h⟩ := Option.bind_eq_some_iff.1 h
    obtain ⟨more', hmore, h⟩ := Option.bind_eq_some_iff.1 h
    obtain ⟨⟨v, rest⟩, hv, heq⟩ := Option.map_eq_some_iff.1 h
    obtain ⟨rfl, rfl⟩ := Prod.mk.inj heq
    have hv' := readsOn_readValue _ _ _ _ hv c tail hc
    rw [← skipBlank_append hc] at hv'
    rw [readStatement_of_assign (head?_append_ne hc hopen hheader)]
    simp [hpaths _ _ _ hpath, after?_append hequals hc, hmore, hv']

theorem SpellsNewline.nextLine?_append {newline : List Char} (h : SpellsNewline newline)
    (back : List Char) : nextLine? (newline ++ back) = some back := by
  cases h <;> rfl

theorem afterNewline?_append {text next : List Char} (h : afterNewline? text = some next)
    (back : List Char) : afterNewline? (text ++ back) = some (next ++ back) := by
  unfold afterNewline? at h
  split at h
  · obtain rfl := Option.some.inj h
    rfl
  · obtain rfl := Option.some.inj h
    rfl
  · simp at h

theorem nextLine?_eq (text : List Char) : nextLine? text =
    if skipComment (skipBlank text) = [] then some []
    else afterNewline? (skipComment (skipBlank text)) := by
  unfold nextLine?
  split
  · next h => rw [if_pos h]
  · next h => rw [if_neg h]

/-- With more lines behind a text, its next line is the same one, or the first of them. -/
theorem nextLine?_append {newline : List Char} (hnl : SpellsNewline newline) {text next : List Char}
    (h : nextLine? text = some next) (back : List Char) :
    nextLine? (text ++ (newline ++ back)) = some (next ++ (newline ++ back)) ∨
      next = [] ∧ nextLine? (text ++ (newline ++ back)) = some back := by
  obtain ⟨d, more, rfl, hd⟩ := hnl.exists_eq_cons
  have hskip : skipComment (skipBlank (text ++ d :: (more ++ back))) =
      skipComment (skipBlank text) ++ d :: (more ++ back) := by
    rw [skipBlank_append hd, skipComment_append hd]
  rw [nextLine?_eq] at h
  rw [List.cons_append, nextLine?_eq, hskip, if_neg (by simp)]
  by_cases hend : skipComment (skipBlank text) = []
  · rw [if_pos hend] at h
    rw [hend]
    exact .inr ⟨(Option.some.inj h).symm, hnl.afterNewline?_append back⟩
  · rw [if_neg hend] at h
    exact .inl (afterNewline?_append h _)

section
variable {text rest next : List Char} {s : Statement}

theorem readStatements_of_end (h : skipBlank text = []) (fuel : Nat) :
    readStatements (fuel + 1) text = some [] := by
  simp [readStatements, h]

theorem readStatements_of_empty_line {d : Char} (h : skipBlank text = d :: rest)
    (hd : d = '#' ∨ d = '\n' ∨ d = '\r') (hnext : nextLine? (d :: rest) = some next) (fuel : Nat) :
    readStatements (fuel + 1) text = readStatements fuel next := by
  simp [readStatements, h, hd, hnext]

theorem readStatements_of_statement {d : Char} {more : List Char} (h : skipBlank text = d :: rest)
    (hd : ¬(d = '#' ∨ d = '\n' ∨ d = '\r')) (hs : readStatement (d :: rest) = some (s, more))
    (hnext : nextLine? more = some next) (fuel : Nat) :
    readStatements (fuel + 1) text = (readStatements fuel next).map (s :: ·) := by
  simp [readStatements, h, hd, hs, hnext, Option.map_eq_bind]

/-- How statements are read: to the end, past a line without one, or past a line with one. -/
theorem readStatements_cases {fuel : Nat} {ss : List Statement}
    (h : readStatements (fuel + 1) text = some ss) :
    (ss = [] ∧ skipBlank text = []) ∨ ∃ d rest, skipBlank text = d :: rest ∧
      ((d = '#' ∨ d = '\n' ∨ d = '\r') ∧
          (∃ next, nextLine? (d :: rest) = some next ∧ readStatements fuel next = some ss) ∨
        ¬(d = '#' ∨ d = '\n' ∨ d = '\r') ∧
          ∃ s more next ss', readStatement (d :: rest) = some (s, more) ∧
            nextLine? more = some next ∧ readStatements fuel next = some ss' ∧ ss = s :: ss') := by
  simp only [readStatements] at h
  split at h
  · next hend => exact .inl ⟨(Option.some.inj h).symm, hend⟩
  · next d rest htext =>
    refine .inr ⟨d, rest, htext, ?_⟩
    split at h
    · next hd =>
      obtain ⟨next, hnext, hss⟩ := Option.bind_eq_some_iff.1 h
      exact .inl ⟨hd, next, hnext, hss⟩
    · next hd =>
      obtain ⟨⟨s, more⟩, hs, h⟩ := Option.bind_eq_some_iff.1 h
      obtain ⟨next, hnext, h⟩ := Option.bind_eq_some_iff.1 h
      obtain ⟨ss', hss, heq⟩ := Option.bind_eq_some_iff.1 h
      exact .inr ⟨hd, s, more, next, ss', hs, hnext, hss, (Option.some.inj heq).symm⟩

theorem readStatements_mono {fuel fuel' : Nat} (hle : fuel ≤ fuel') {ss : List Statement}
    (h : readStatements fuel text = some ss) : readStatements fuel' text = some ss := by
  induction fuel generalizing fuel' text ss with
  | zero => simp [readStatements] at h
  | succ fuel ih =>
    obtain ⟨fuel', rfl⟩ : ∃ n, fuel' = n + 1 := ⟨fuel' - 1, by omega⟩
    rcases readStatements_cases h with ⟨rfl, hend⟩ | ⟨d, rest, htext, ⟨hd, hempty⟩ | ⟨hd, hline⟩⟩
    · exact readStatements_of_end hend fuel'
    · obtain ⟨next, hnext, hss⟩ := hempty
      rw [readStatements_of_empty_line htext hd hnext, ih (by omega) hss]
    · obtain ⟨s, more, next, ss', hs, hnext, hss, rfl⟩ := hline
      rw [readStatements_of_statement htext hd hs hnext, ih (by omega) hss]
      rfl

end

theorem eq_nil_of_readStatements_nil {fuel : Nat} {ss : List Statement}
    (h : readStatements fuel [] = some ss) : ss = [] := by
  cases fuel with
  | zero => simp [readStatements] at h
  | succ fuel => exact (Option.some.inj h).symm

/-- Lines are read one after the other: what can be read is read the same before other lines and
behind them. -/
theorem readStatements_lines {newline : List Char} (hnl : SpellsNewline newline)
    {front back : List Char} {before after : List Statement} {fuel fuel' : Nat}
    (hfront : readStatements fuel front = some before)
    (hback : readStatements fuel' back = some after) :
    readStatements (fuel + fuel') (front ++ (newline ++ back)) = some (before ++ after) := by
  induction fuel generalizing front before with
  | zero => simp [readStatements] at hfront
  | succ fuel ih =>
    -- the rest of the front lines may be none at all, and then the back lines come at once
    have hnext {next : List Char} {ss : List Statement} (hss : readStatements fuel next = some ss)
        {line : List Char} (hline : nextLine? line = some next) :
        ∃ next', nextLine? (line ++ (newline ++ back)) = some next' ∧
          readStatements (fuel + fuel') next' = some (ss ++ after) := by
      rcases nextLine?_append hnl hline back with hlines | ⟨rfl, hback'⟩
      · exact ⟨_, hlines, ih hss⟩
      · obtain rfl := eq_nil_of_readStatements_nil hss
        exact ⟨back, hback', readStatements_mono (Nat.le_add_left _ _) hback⟩
    obtain ⟨d, more, rfl, hend⟩ := hnl.exists_eq_cons
    have htext : skipBlank (front ++ (d :: more ++ back)) =
        skipBlank front ++ (d :: more ++ back) := skipBlank_append hend front
    rw [Nat.succ_add]
    rcases readStatements_cases hfront with
      ⟨rfl, hblank⟩ | ⟨e, rest, hrest, ⟨he, hempty⟩ | ⟨he, hline⟩⟩
    · rw [hblank] at htext
      rw [readStatements_of_empty_line htext (.inr hend) (hnl.nextLine?_append back)]
      exact readStatements_mono (Nat.le_add_left _ _) hback
    · obtain ⟨next, hline, hss⟩ := hempty
      obtain ⟨next', hline', hss'⟩ := hnext hss hline
      rw [hrest] at htext
      rw [readStatements_of_empty_line htext he hline', hss']
    · obtain ⟨s, more', next, ss, hs, hline, hss, rfl⟩ := hline
      obtain ⟨next', hline', hss'⟩ := hnext hss hline
      have hs' := readsOn_readStatement _ _ _ hs d (more ++ back) hend
      rw [hrest] at htext
      rw [readStatements_of_statement htext he hs' hline', hss']
      rfl

end
end PhraseArithmetic.Toml
