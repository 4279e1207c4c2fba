import PhraseArithmetic.Evaluation.Cursor
import PhraseArithmetic.Proofs.Evaluation.Ending

/-!
# Where a cursor stands

A cursor that has not read an operand has passed words only. One that has read an operand stands at
the next operand, with the word before it pending, or behind the last token. Its value is that of
the chain it has passed. So it never strays, and it reads no token twice.
-/
namespace PhraseArithmetic

namespace Chain

/-- One operation more. -/
def concat (c : Chain) (l : Link) : Chain := ⟨c.first, c.links ++ [l]⟩

theorem tokens_concat (c : Chain) (l : Link) : (c.concat l).tokens = c.tokens ++ l.tokens := by
  simp [concat, tokens]

theorem value_concat (c : Chain) (l : Link) : (c.concat l).value = l.1.combine c.value l.2 := by
  simp [concat, value, foldFrom]

end Chain

theorem Token.Splits.concat {tokens before : List Token} {chain : Chain} {o : Operator} {n : Int64}
    {rest : List Token} (h : Splits tokens before chain (.operator o :: .number n :: rest))
    (hl : Link.IsDefined (o, n)) : Splits tokens before (chain.concat (o, n)) rest where
  tokens_eq := by simp [h.tokens_eq, Chain.tokens_concat, Link.tokens]
  before_isNumber := h.before_isNumber
  isDefined l hmem := by
    rcases List.mem_append.1 hmem with hmem | hmem
    · exact h.isDefined l hmem
    · rwa [List.mem_singleton.1 hmem]

theorem Token.Splits.getElem?_pending {tokens before : List Token} {chain : Chain} {t : Token}
    {rest : List Token} (h : Splits tokens before chain (t :: rest)) :
    tokens[(before ++ chain.tokens).length]? = some t := by
  rw [h.tokens_eq, ← List.append_assoc, List.getElem?_append_right (Nat.le_refl _), Nat.sub_self]
  rfl

theorem Token.Splits.getElem?_operand {tokens before : List Token} {chain : Chain} {t u : Token}
    {rest : List Token} (h : Splits tokens before chain (t :: u :: rest)) :
    tokens[(before ++ chain.tokens).length + 1]? = some u := by
  rw [h.tokens_eq, ← List.append_assoc, List.getElem?_append_right (by omega),
    Nat.add_sub_cancel_left]
  rfl

namespace Cursor
open Token (Splits)

/-- The cursor that a walk over the tokens has come to after some steps. -/
inductive Reaches (tokens : List Token) : Nat → Cursor → Prop where
  | start : Reaches tokens 0 .start
  | advance {steps : Nat} {c next : Cursor} (h : Reaches tokens steps c)
      (hstep : c.step tokens = .advance next) : Reaches tokens (steps + 1) next

/-- The places where a cursor may stand between two steps, with what it then holds. -/
inductive Stands (tokens : List Token) : Cursor → Prop where
  | searching {before rest : List Token} (htokens : tokens = before ++ rest)
      (hbefore : ∀ t ∈ before, t.isNumber = false) :
      Stands tokens ⟨before.length, 0, .operator .plus, false⟩
  | atOperand {before : List Token} {chain : Chain} {pending : Token} {n : Int64}
      {rest : List Token} (h : Splits tokens before chain (pending :: .number n :: rest)) :
      Stands tokens ⟨(before ++ chain.tokens).length + 1, chain.value, pending, true⟩
  | atEnd {before : List Token} {chain : Chain} (h : Splits tokens before chain [])
      (pending : Token) : Stands tokens ⟨tokens.length, chain.value, pending, true⟩

section
variable {tokens : List Token} {c next : Cursor}

/-- Behind the operand that ends a chain a cursor goes on to the next operand or to the end. -/
theorem Stands.of_proceed {before : List Token} {chain : Chain} {rest : List Token}
    (h : Splits tokens before chain rest) (hplace : c.place + 1 = (before ++ chain.tokens).length)
    (hproceed : c.proceed tokens chain.value = .advance next) : Stands tokens next := by
  have htokens : tokens = before ++ chain.tokens ++ rest := by simp [h.tokens_eq]
  have hfirst : tokens[c.place + 1]? = rest[0]? := by
    rw [htokens, List.getElem?_append_right (by omega), hplace, Nat.sub_self]
  have hsecond : tokens[c.place + 2]? = rest[1]? := by
    rw [htokens, List.getElem?_append_right (by omega)]
    congr 1
    omega
  rw [proceed, hfirst, hsecond] at hproceed
  cases rest with
  | nil =>
    obtain rfl := Move.advance.inj hproceed
    have hend : c.place + 1 = tokens.length := by rw [hplace, htokens, List.append_nil]
    rw [hend]
    exact .atEnd h c.pending
  | cons t rest =>
    cases rest with
    | nil => cases t <;> simp at hproceed
    | cons u rest =>
      cases u with
      | operator o => cases t <;> simp at hproceed
      | unrecognized w => cases t <;> simp at hproceed
      | number n =>
        obtain rfl := Move.advance.inj hproceed
        rw [show c.place + 2 = (before ++ chain.tokens).length + 1 by omega]
        exact .atOperand h

theorem exists_of_operand {n : Int64} (h : c.operand tokens n = .advance next) :
    ∃ o, c.pending = .operator o ∧ Link.IsDefined (o, n) ∧
      c.proceed tokens (o.combine c.value n) = .advance next := by
  obtain ⟨place, value, pending, started⟩ := c
  cases pending with
  | number m => simp [operand] at h
  | unrecognized w => simp [operand] at h
  | operator o =>
    by_cases hl : o = .divided ∧ n = 0
    · simp [operand, Operator.apply, hl] at h
    · exact ⟨o, rfl, hl, by simpa [operand, Operator.apply, hl] using h⟩

theorem Stands.pass {before rest : List Token} {t : Token} (htokens : tokens = before ++ t :: rest)
    (hbefore : ∀ u ∈ before, u.isNumber = false) (ht : t.isNumber = false) :
    Stands tokens ⟨before.length + 1, 0, .operator .plus, false⟩ := by
  have hlength : (before ++ [t]).length = before.length + 1 := by simp
  rw [← hlength]
  have hsplit : tokens = (before ++ [t]) ++ rest := by simp [htokens]
  refine .searching hsplit ?_
  intro u hu
  rcases List.mem_append.1 hu with hu | hu
  · exact hbefore u hu
  · rwa [List.mem_singleton.1 hu]

theorem Stands.of_step (h : Stands tokens c) (hstep : c.step tokens = .advance next) :
    Stands tokens next := by
  cases h with
  | @searching before rest htokens hbefore =>
    have hplace : tokens[before.length]? = rest[0]? := by
      rw [htokens, List.getElem?_append_right (Nat.le_refl _), Nat.sub_self]
    rw [step, hplace] at hstep
    cases rest with
    | nil => simp at hstep
    | cons t rest =>
      cases t with
      | operator o =>
        obtain rfl := Move.advance.inj hstep
        exact .pass htokens hbefore rfl
      | unrecognized w =>
        obtain rfl := Move.advance.inj hstep
        exact .pass htokens hbefore rfl
      | number n =>
        obtain ⟨o, ho, -, hproceed⟩ := exists_of_operand hstep
        obtain rfl : Operator.plus = o := Token.operator.inj ho
        have hsplits : Splits tokens before ⟨n, []⟩ rest :=
          ⟨by simp [htokens, Chain.tokens], hbefore, by simp⟩
        have hvalue : (Chain.mk n []).value = Operator.plus.combine 0 n := by
          simp [Chain.value, Chain.foldFrom, Operator.combine]
        exact .of_proceed hsplits (by simp [Chain.tokens]) (hvalue ▸ hproceed)
  | @atOperand before chain pending n rest hsplits =>
    have hplace : tokens[(before ++ chain.tokens).length + 1]? = some (.number n) :=
      hsplits.getElem?_operand
    rw [step, hplace] at hstep
    obtain ⟨o, ho, hl, hproceed⟩ := exists_of_operand hstep
    obtain rfl : pending = .operator o := ho
    refine .of_proceed (hsplits.concat hl) ?_ (Chain.value_concat chain (o, n) ▸ hproceed)
    simp [Chain.tokens_concat, Link.tokens]
    omega
  | atEnd hsplits pending => simp [step] at hstep

theorem Stands.of_reaches {steps : Nat} (h : Reaches tokens steps c) : Stands tokens c := by
  induction h with
  | start => exact .searching (List.nil_append tokens).symm (by simp)
  | advance _ hstep ih => exact ih.of_step hstep

/-- A walk reads no token twice. -/
theorem Reaches.steps_le {steps : Nat} (h : Reaches tokens steps c) : steps ≤ c.place := by
  induction h with
  | start => exact Nat.le_refl _
  | advance _ hstep ih =>
    have hlt := (place_lt_of_step hstep).2
    omega

theorem proceed_ne_stray (value other : Int64) : c.proceed tokens value ≠ .stray other := by
  unfold proceed
  split <;> simp

/-- A cursor strays from a word when it has read an operand. -/
theorem exists_of_stray {value : Int64} (h : c.step tokens = .stray value) :
    c.started = true ∧ ∃ t, tokens[c.place]? = some t ∧ t.isNumber = false := by
  unfold step at h
  split at h
  · split at h <;> simp at h
  · unfold operand at h
    split at h
    · split at h
      · exact absurd h (proceed_ne_stray _ _)
      · simp at h
    · simp at h
  · next t hword ht =>
    split at h
    · next hstarted => exact ⟨hstarted, t, ht, by cases t <;> simp_all [Token.isNumber]⟩
    · simp at h

end

/-- The tokens that a started cursor has passed, but for the word that waits for its operand. -/
def consumed (tokens : List Token) (c : Cursor) : List Token :=
  if c.place < tokens.length then tokens.take (c.place - 1) else tokens

/-- What holds of a cursor between two steps: it has read nothing but words, or it has folded the
operations behind it and stands at an operand or at the end. -/
structure Lands (tokens : List Token) (c : Cursor) : Prop where
  place_le : c.place ≤ tokens.length
  searching : c.started = false →
    (∀ t ∈ tokens.take c.place, t.isNumber = false) ∧ c.pending = .operator .plus ∧ c.value = 0
  operand : c.started = true → c.place < tokens.length →
    (∃ n, tokens[c.place]? = some (.number n)) ∧ 0 < c.place ∧
      tokens[c.place - 1]? = some c.pending
  folded : c.started = true →
    ∃ before chain, Splits (consumed tokens c) before chain [] ∧ c.value = chain.value

section
variable {tokens : List Token} {c : Cursor}

theorem Stands.lands (h : Stands tokens c) : Lands tokens c := by
  cases h with
  | @searching before rest htokens hbefore =>
    refine ⟨by simp [htokens], fun _ => ⟨?_, rfl, rfl⟩, by simp, by simp⟩
    simpa [htokens] using hbefore
  | @atOperand before chain pending n rest hsplits =>
    have hoperand := hsplits.getElem?_operand
    have hlt := (List.getElem?_eq_some_iff.1 hoperand).1
    refine ⟨Nat.le_of_lt hlt, by simp, fun _ _ => ⟨⟨n, hoperand⟩, by simp, ?_⟩, fun _ => ?_⟩
    · exact hsplits.getElem?_pending
    · refine ⟨before, chain, ⟨?_, hsplits.before_isNumber, hsplits.isDefined⟩, rfl⟩
      rw [consumed, if_pos hlt, Nat.add_sub_cancel, hsplits.tokens_eq, ← List.append_assoc,
        List.take_left, List.append_nil]
  | @atEnd before chain hsplits pending =>
    refine ⟨Nat.le_refl _, by simp, fun _ h => absurd h (Nat.lt_irrefl _), fun _ => ?_⟩
    exact ⟨before, chain, by simpa [consumed] using hsplits, rfl⟩

theorem Lands.step_ne_stray (h : Lands tokens c) (value : Int64) :
    c.step tokens ≠ .stray value := by
  intro hstray
  obtain ⟨hstarted, t, ht, hword⟩ := exists_of_stray hstray
  obtain ⟨⟨n, hn⟩, -⟩ := h.operand hstarted (List.getElem?_eq_some_iff.1 ht).1
  rw [hn] at ht
  obtain rfl := Option.some.inj ht
  simp [Token.isNumber] at hword

end

/-- The step that ends a walk, and what the walk then gives. -/
def Move.Ends : Move → Except Fault Int64 → Prop
  | .finish value, result => result = .ok value
  | .refuse fault, result => result = .error fault
  | .advance _, _ | .stray _, _ => False

/-- A walk goes on until a step ends it. -/
theorem Reaches.exists_end {tokens : List Token} {c : Cursor} {steps : Nat}
    (h : Reaches tokens steps c) :
    ∃ steps' c', Reaches tokens steps' c' ∧ (c'.step tokens).Ends (walk tokens c) := by
  fun_induction walk tokens c generalizing steps with
  | case1 c next hstep ih => exact ih (h.advance hstep)
  | case2 c value hstep => exact ⟨steps, c, h, by rw [hstep]; rfl⟩
  | case3 c value hstep => exact absurd hstep ((Stands.of_reaches h).lands.step_ne_stray value)
  | case4 c fault hstep => exact ⟨steps, c, h, by rw [hstep]; rfl⟩

/-- On every walk the cursor has read words only or stands at an operand or at the end, with the
fold of what it has passed. So it never strays. The walk ends in what evaluation gives after it has
read a token no more often than there are tokens. -/
theorem walk_lands_on_operands (tokens : List Token) :
    (∀ steps c, Reaches tokens steps c →
      Lands tokens c ∧ ∀ value, c.step tokens ≠ .stray value) ∧
    ∃ steps c, Reaches tokens steps c ∧ (c.step tokens).Ends (Token.evaluate tokens) ∧
      (if c.place < tokens.length then steps + 1 else steps) ≤ tokens.length := by
  constructor
  · intro steps c h
    have hlands := (Stands.of_reaches h).lands
    exact ⟨hlands, hlands.step_ne_stray⟩
  · obtain ⟨steps, c, h, hends⟩ := Reaches.exists_end (.start : Reaches tokens 0 .start)
    refine ⟨steps, c, h, walk_start tokens ▸ hends, ?_⟩
    have hsteps := h.steps_le
    have hplace := (Stands.of_reaches h).lands.place_le
    split <;> omega

/-- After two steps the cursor has passed a word, a number and an operator, and stands at the
operator's operand. -/
theorem walk_lands_on_three :
    Reaches [.unrecognized "so", .number 2, .operator .plus, .number 3] 2
        ⟨3, 2, .operator .plus, true⟩ ∧
      Lands [.unrecognized "so", .number 2, .operator .plus, .number 3]
        ⟨3, 2, .operator .plus, true⟩ := by
  have hpassed : Reaches [.unrecognized "so", .number 2, .operator .plus, .number 3] 1
      ⟨1, 0, .operator .plus, false⟩ := Reaches.start.advance (by decide)
  have hreached : Reaches [.unrecognized "so", .number 2, .operator .plus, .number 3] 2
      ⟨3, 2, .operator .plus, true⟩ := hpassed.advance (by decide)
  exact ⟨hreached, ((walk_lands_on_operands _).1 _ _ hreached).1⟩

end Cursor
end PhraseArithmetic
