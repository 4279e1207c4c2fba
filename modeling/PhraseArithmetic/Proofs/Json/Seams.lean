import PhraseArithmetic.Json.Lexeme

/-!
# Seams in a text

What has been emitted is never looked at again. So where the lexer stands between two lexemes the
rest of a text is cut as a text of its own, and where the lexemes of a text have a front that ends
in a closing bracket the text has a front with just these lexemes, whatever follows it.
-/
namespace PhraseArithmetic.Json

/-- An object or an array ends here. -/
def Lexeme.closes : Lexeme → Bool
  | endObject | endArray => true
  | _ => false

namespace Lexer.State

/-- The state with more lexemes emitted before its own, the last of them first. -/
def onto (s : State) (earlier : List Lexeme) : State := ⟨s.mode, s.emitted ++ earlier⟩

section
variable (s : State) (earlier : List Lexeme)

@[simp] theorem mode_onto : (s.onto earlier).mode = s.mode := rfl

@[simp] theorem emit_onto (l : Lexeme) : (s.onto earlier).emit l = (s.emit l).onto earlier := rfl

@[simp] theorem lose_onto : (s.onto earlier).lose = s.lose.onto earlier := rfl

@[simp] theorem goto_onto (m : Mode) : (s.onto earlier).goto m = (s.goto m).onto earlier := rfl

theorem begin_onto (c : Char) : (s.onto earlier).begin c = (s.begin c).onto earlier := by
  unfold begin
  split
  · rfl
  · split
    all_goals try rfl
    split <;> rfl

theorem pushChar_onto (c : Char) :
    (s.onto earlier).pushChar c = (s.pushChar c).onto earlier := by
  cases hm : s.mode with
  | between => simp [pushChar, hm, begin_onto]
  | literal expected =>
    rcases expected with - | ⟨e, - | ⟨e', rest⟩⟩
    · simp [pushChar, hm]
    · simp only [pushChar, hm, mode_onto]
      split <;> simp
    · simp only [pushChar, hm, mode_onto]
      split <;> simp
  | number phase reversed =>
    cases ha : phase.advance c <;> simp [pushChar, hm, ha, begin_onto]
  | string spelling =>
    simp only [pushChar, hm, mode_onto]
    repeat' split
    all_goals simp
  | escape spelling =>
    simp only [pushChar, hm, mode_onto]
    split
    · simp
    · cases escapeValue? c <;> simp
  | unit missing value spelling =>
    simp only [pushChar, hm, mode_onto]
    cases Text.hexValue? c with
    | none => simp
    | some d =>
      simp only []
      split <;> simp
  | lost => simp [pushChar, hm]

theorem pushStray_onto : (s.onto earlier).pushStray = s.pushStray.onto earlier := by
  cases hm : s.mode with
  | number phase reversed =>
    simp only [pushStray, hm, mode_onto]
    split <;> simp
  | between => simp [pushStray, hm]
  | literal expected => simp [pushStray, hm]
  | string spelling => simp [pushStray, hm]
  | escape spelling => simp [pushStray, hm]
  | unit missing value spelling => simp [pushStray, hm]
  | lost => simp [pushStray, hm]

theorem push_onto (c : Text.Symbol) : (s.onto earlier).push c = (s.push c).onto earlier := by
  cases c with
  | none => exact s.pushStray_onto earlier
  | some c => exact s.pushChar_onto earlier c

theorem foldl_push_onto (text : List Text.Symbol) :
    text.foldl push (s.onto earlier) = (text.foldl push s).onto earlier := by
  induction text generalizing s with
  | nil => rfl
  | cons c text ih => rw [List.foldl_cons, List.foldl_cons, push_onto, ih]

theorem finish_onto : (s.onto earlier).finish = earlier.reverse ++ s.finish := by
  cases hm : s.mode <;> simp [finish, onto, hm]

end

/-- Only the last lexeme may close, and if it does the lexer stands between two lexemes. -/
structure ClosesLast (s : State) : Prop where
  tail : ∀ l ∈ s.emitted.tail, l.closes = false
  head : ∀ l ∈ s.emitted.head?, l.closes = true → s.mode = .between

section
variable {s : State} (h : ∀ l ∈ s.emitted, l.closes = false)
include h

theorem closesLast_emit (l : Lexeme) : (s.emit l).ClosesLast := ⟨h, fun _ _ _ => rfl⟩

theorem closesLast_goto (m : Mode) : (s.goto m).ClosesLast where
  tail l hl := h l (List.mem_of_mem_tail hl)
  head l hl hc := by
    rw [h l (List.mem_of_mem_head? hl)] at hc
    exact absurd hc Bool.false_ne_true

theorem closesLast_lose : s.lose.ClosesLast where
  tail := h
  head l hl hc := by
    obtain rfl : .malformed = l := by simpa [lose] using hl
    exact absurd hc Bool.false_ne_true

theorem closesLast_begin (c : Char) : (s.begin c).ClosesLast := by
  unfold begin
  split
  · exact closesLast_goto h _
  · split
    all_goals try exact closesLast_emit h _
    all_goals try exact closesLast_goto h _
    split
    · exact closesLast_goto h _
    · exact closesLast_lose h

theorem forall_emit_number (text : List Char) :
    ∀ l ∈ (s.emit (.number text)).emitted, l.closes = false := by
  intro l hl
  rcases List.mem_cons.1 hl with rfl | hl
  · rfl
  · exact h l hl

theorem closesLast_pushChar (c : Char) : (s.pushChar c).ClosesLast := by
  cases hm : s.mode with
  | between =>
    simp only [pushChar, hm]
    exact closesLast_begin h c
  | number phase reversed =>
    simp only [pushChar, hm]
    split
    · exact closesLast_goto h _
    · exact closesLast_begin (forall_emit_number h _) c
    · exact closesLast_lose h
  | lost =>
    simp only [pushChar, hm]
    exact closesLast_goto h s.mode
  | literal expected =>
    rcases expected with - | ⟨e, - | ⟨e', rest⟩⟩
    all_goals simp only [pushChar, hm]
    · exact closesLast_lose h
    · split
      · exact closesLast_emit h _
      · exact closesLast_lose h
    · split
      · exact closesLast_goto h _
      · exact closesLast_lose h
  | string spelling =>
    simp only [pushChar, hm]
    split
    · exact closesLast_emit h _
    · split
      · exact closesLast_goto h _
      · split
        · exact closesLast_lose h
        · exact closesLast_goto h _
  | escape spelling =>
    simp only [pushChar, hm]
    split
    · exact closesLast_goto h _
    · cases escapeValue? c with
      | none => exact closesLast_lose h
      | some e => exact closesLast_goto h _
  | unit missing value spelling =>
    simp only [pushChar, hm]
    cases Text.hexValue? c with
    | none => exact closesLast_lose h
    | some d =>
      simp only []
      split
      · exact closesLast_goto h _
      · exact closesLast_goto h _

theorem closesLast_pushStray : s.pushStray.ClosesLast := by
  cases hm : s.mode with
  | string spelling =>
    simp only [pushStray, hm]
    exact closesLast_goto h _
  | number phase reversed =>
    simp only [pushStray, hm]
    split
    · exact closesLast_lose (forall_emit_number h _)
    · exact closesLast_lose h
  | lost =>
    simp only [pushStray, hm]
    exact closesLast_goto h s.mode
  | between => simpa only [pushStray, hm] using closesLast_lose h
  | literal expected => simpa only [pushStray, hm] using closesLast_lose h
  | escape spelling => simpa only [pushStray, hm] using closesLast_lose h
  | unit missing value spelling => simpa only [pushStray, hm] using closesLast_lose h

theorem closesLast_push (c : Text.Symbol) : (s.push c).ClosesLast := by
  cases c with
  | none => exact closesLast_pushStray h
  | some c => exact closesLast_pushChar h c

end

theorem ClosesLast.mode_eq {s : State} (h : s.ClosesLast) {front rest : List Lexeme}
    (hs : s.emitted.reverse = front ++ rest) {l : Lexeme} (hl : front.getLast? = some l)
    (hc : l.closes = true) : rest = [] ∧ s.mode = .between := by
  have hemitted : s.emitted = rest.reverse ++ front.reverse := by
    rw [← List.reverse_append, ← hs, List.reverse_reverse]
  cases hrest : rest.reverse with
  | nil =>
    refine ⟨List.reverse_eq_nil_iff.1 hrest, h.head l ?_ hc⟩
    simp [hemitted, hrest, hl]
  | cons x xs =>
    have hmem : l ∈ s.emitted.tail := by
      simp [hemitted, hrest, List.mem_of_getLast? hl]
    rw [h.tail l hmem] at hc
    exact absurd hc Bool.false_ne_true

end Lexer.State

/-- The lexemes of a text on which the lexer goes in a mode. -/
def lexemesIn (m : Lexer.Mode) (text : List Text.Symbol) : List Lexeme :=
  (text.foldl Lexer.State.push ⟨m, []⟩).finish

open Lexer (State)

theorem finish_foldl_push (s : State) (text : List Text.Symbol) :
    (text.foldl State.push s).finish = s.emitted.reverse ++ lexemesIn s.mode text := by
  have hs : text.foldl State.push s = (text.foldl State.push ⟨s.mode, []⟩).onto s.emitted :=
    State.foldl_push_onto ⟨s.mode, []⟩ s.emitted text
  rw [hs, State.finish_onto]
  rfl

theorem lexemesIn_cons (m : Lexer.Mode) (c : Text.Symbol) (text : List Text.Symbol) :
    lexemesIn m (c :: text) =
      ((State.mk m []).push c).emitted.reverse ++ lexemesIn ((State.mk m []).push c).mode text :=
  finish_foldl_push _ text

/-- Where the lexer stands between two lexemes the rest is cut as a text of its own. -/
theorem lexemes_append_of_between {front : List Text.Symbol} {emitted : List Lexeme}
    (h : front.foldl State.push .start = ⟨.between, emitted⟩) (rest : List Text.Symbol) :
    lexemes (front ++ rest) = emitted.reverse ++ lexemes rest := by
  rw [lexemes, List.foldl_append, h, finish_foldl_push]
  rfl

theorem finish_closes (m : Lexer.Mode) : ∀ l ∈ lexemesIn m [], l.closes = false := by
  intro l hl
  cases m with
  | number phase reversed =>
    obtain rfl : l = if phase.isComplete then .number reversed.reverse else .malformed := by
      simpa [lexemesIn, State.finish] using hl
    split <;> rfl
  | between => simp [lexemesIn, State.finish] at hl
  | lost => simp [lexemesIn, State.finish] at hl
  | literal expected => simp [lexemesIn, State.finish] at hl; simp [hl, Lexeme.closes]
  | string spelling => simp [lexemesIn, State.finish] at hl; simp [hl, Lexeme.closes]
  | escape spelling => simp [lexemesIn, State.finish] at hl; simp [hl, Lexeme.closes]
  | unit missing value spelling => simp [lexemesIn, State.finish] at hl; simp [hl, Lexeme.closes]

theorem exists_front_in {m : Lexer.Mode} {text : List Text.Symbol} {front rest : List Lexeme}
    (h : lexemesIn m text = front ++ rest) {l : Lexeme} (hl : front.getLast? = some l)
    (hc : l.closes = true) :
    ∃ before behind, text = before ++ behind ∧
      before.foldl State.push ⟨m, []⟩ = ⟨.between, front.reverse⟩ := by
  induction text generalizing m front with
  | nil =>
    have hmem : l ∈ lexemesIn m [] := by
      rw [h]
      exact List.mem_append_left _ (List.mem_of_getLast? hl)
    rw [finish_closes m l hmem] at hc
    exact absurd hc Bool.false_ne_true
  | cons c text ih =>
    let s := (State.mk m []).push c
    have hs : s.ClosesLast := State.closesLast_push (by simp) c
    rw [lexemesIn_cons] at h
    rcases List.append_eq_append_iff.1 h with ⟨later, rfl, hlater⟩ | ⟨surplus, hsurplus, -⟩
    · cases later with
      | cons x xs =>
        have hlast : (x :: xs).getLast? = some l := by
          simpa [List.getLast?_append, List.getLast?_cons] using hl
        obtain ⟨before, behind, rfl, hbefore⟩ := ih hlater hlast
        refine ⟨c :: before, behind, rfl, ?_⟩
        have honto := State.foldl_push_onto ⟨s.mode, []⟩ s.emitted before
        rw [hbefore] at honto
        simpa [State.onto] using honto
      | nil =>
        rw [List.append_nil] at hl
        obtain ⟨-, hmode⟩ := hs.mode_eq (List.append_nil _).symm hl hc
        exact ⟨[c], text, rfl, by simp [← hmode, s]⟩
    · obtain ⟨rfl, hmode⟩ := hs.mode_eq hsurplus hl hc
      rw [List.append_nil] at hsurplus
      exact ⟨[c], text, rfl, by simp [← hmode, ← hsurplus, s]⟩

/-- A front of the lexemes that ends in a closing bracket is that of a front of the text, and stays
so whatever comes behind that. -/
theorem exists_front {text : List Text.Symbol} {front rest : List Lexeme}
    (h : lexemes text = front ++ rest) {l : Lexeme} (hl : front.getLast? = some l)
    (hc : l.closes = true) :
    ∃ before behind, text = before ++ behind ∧
      ∀ more, lexemes (before ++ more) = front ++ lexemes more := by
  obtain ⟨before, behind, htext, hbefore⟩ := exists_front_in h hl hc
  refine ⟨before, behind, htext, fun more => ?_⟩
  rw [lexemes_append_of_between hbefore more, List.reverse_reverse]

end PhraseArithmetic.Json
