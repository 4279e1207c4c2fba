import PhraseArithmetic.Proofs.Json.Grammar
import PhraseArithmetic.Wire.Reading

/-!
# Unknown members leave no trace

The lexemes of any value, however deep its arrays and objects are nested, are passed over as the
value of an unknown member, and reading then goes on as if the member had not been there.
-/
namespace PhraseArithmetic.Wire
open Json (Lexeme Tree furtherElementLexemes furtherMemberLexemes)

namespace Ignored

/-- A value may come next. -/
def WantsValue (i : Ignored) : Prop := i.expected = .value ∨ i.expected = .elementOrEnd

theorem WantsValue.step_eq {i : Ignored} (h : i.WantsValue) {l : Lexeme} (hl : l ≠ .endArray) :
    i.step l = valueStep i.opened l := by
  obtain ⟨opened, expected⟩ := i
  rcases h with rfl | rfl
  · rfl
  · cases l with
    | endArray => exact absurd rfl hl
    | _ => rcases opened with - | ⟨_ | _, outer⟩ <;> rfl

end Ignored

namespace Reading

/-- A value is passed over, with these containers still open around it. -/
def passed (opened : List Container) (found : Members) : Reading :=
  ⟨if opened.isEmpty then .afterMember else .ignored ⟨opened, .commaOrEnd⟩, found⟩

variable (fields : List Field) (found : Members)

theorem run_ignored_cons {i next : Ignored} {l : Lexeme} (h : i.step l = some next)
    (rest : List Lexeme) :
    (mk (.ignored i) found).run fields (l :: rest) =
      (mk (if next.isFinished then .afterMember else .ignored next) found).run fields rest :=
  run_cons fields (by simp) (by simp [step, h, goto]) rest

/-- One lexeme that does not finish a value. -/
theorem run_ignored_going {i next : Ignored} {l : Lexeme} (h : i.step l = some next)
    (hnext : next.expected ≠ .commaOrEnd) (rest : List Lexeme) :
    (mk (.ignored i) found).run fields (l :: rest) =
      (mk (.ignored next) found).run fields rest := by
  rw [run_ignored_cons fields found h]
  simp [Ignored.isFinished, hnext]

/-- One lexeme that finishes a value. -/
theorem run_ignored_passing {i : Ignored} {l : Lexeme} {opened : List Container}
    (h : i.step l = some ⟨opened, .commaOrEnd⟩) (rest : List Lexeme) :
    (mk (.ignored i) found).run fields (l :: rest) = (passed opened found).run fields rest := by
  rw [run_ignored_cons fields found h]
  simp [Ignored.isFinished, passed]

theorem passed_cons (c : Container) (outer : List Container) :
    passed (c :: outer) found = ⟨.ignored ⟨c :: outer, .commaOrEnd⟩, found⟩ := rfl

/-- A name and its colon, behind which the value is wanted. -/
theorem run_ignored_name {outer : List Container} {i : Ignored}
    (hi : i = ⟨.object :: outer, .keyOrEnd⟩ ∨ i = ⟨.object :: outer, .key⟩) (name : String)
    (rest : List Lexeme) :
    (mk (.ignored i) found).run fields (.string (some name) :: .colon :: rest) =
      (mk (.ignored ⟨.object :: outer, .value⟩) found).run fields rest := by
  have hname : i.step (.string (some name)) = some ⟨.object :: outer, .colon⟩ := by
    rcases hi with rfl | rfl <;> rfl
  rw [run_ignored_going fields found hname (by simp), run_ignored_going fields found rfl (by simp)]

mutual

/-- The lexemes of a value are passed over where a value may come. -/
theorem run_lexemes (t : Tree) {i : Ignored} (hi : i.WantsValue) (rest : List Lexeme) :
    (mk (.ignored i) found).run fields (t.lexemes ++ rest) =
      (passed i.opened found).run fields rest := by
  match t with
  | .null | .boolean _ | .number _ | .string _ =>
    exact run_ignored_passing fields found (hi.step_eq (by simp)) rest
  | .array [] =>
    have hopen := hi.step_eq (l := .beginArray) (by simp)
    simp only [Tree.lexemes, List.cons_append, List.nil_append]
    rw [run_ignored_going fields found hopen (by simp), run_ignored_passing fields found rfl]
  | .array (t :: ts) =>
    have hopen := hi.step_eq (l := .beginArray) (by simp)
    simp only [Tree.lexemes, List.cons_append, List.append_assoc, List.nil_append]
    rw [run_ignored_going fields found hopen (by simp), run_lexemes t (.inr rfl),
      run_furtherElementLexemes ts]
  | .object [] =>
    have hopen := hi.step_eq (l := .beginObject) (by simp)
    simp only [Tree.lexemes, List.cons_append, List.nil_append]
    rw [run_ignored_going fields found hopen (by simp), run_ignored_passing fields found rfl]
  | .object ((name, t) :: ms) =>
    have hopen := hi.step_eq (l := .beginObject) (by simp)
    simp only [Tree.lexemes, List.cons_append, List.append_assoc, List.nil_append]
    rw [run_ignored_going fields found hopen (by simp), run_ignored_name fields found (.inl rfl),
      run_lexemes t (.inl rfl), run_furtherMemberLexemes ms]

theorem run_furtherElementLexemes (ts : List Tree) (outer : List Container) (rest : List Lexeme) :
    (passed (.array :: outer) found).run fields (furtherElementLexemes ts ++ .endArray :: rest) =
      (passed outer found).run fields rest := by
  rw [passed_cons]
  match ts with
  | [] => exact run_ignored_passing fields found rfl rest
  | t :: ts =>
    simp only [furtherElementLexemes, List.cons_append, List.append_assoc]
    rw [run_ignored_going fields found rfl (by simp), run_lexemes t (.inl rfl),
      run_furtherElementLexemes ts]

theorem run_furtherMemberLexemes (ms : List (String × Tree)) (outer : List Container)
    (rest : List Lexeme) :
    (passed (.object :: outer) found).run fields (furtherMemberLexemes ms ++ .endObject :: rest) =
      (passed outer found).run fields rest := by
  rw [passed_cons]
  match ms with
  | [] => exact run_ignored_passing fields found rfl rest
  | (name, t) :: ms =>
    simp only [furtherMemberLexemes, List.cons_append, List.append_assoc]
    rw [run_ignored_going fields found rfl (by simp), run_ignored_name fields found (.inr rfl),
      run_lexemes t (.inl rfl), run_furtherMemberLexemes ms]

end

/-- Where the value of an unknown member comes, any value is passed over. -/
theorem run_unknown_value (t : Tree) (rest : List Lexeme) :
    (mk (.ignored .start) found).run fields (t.lexemes ++ rest) =
      (mk .afterMember found).run fields rest :=
  run_lexemes fields found t (.inl rfl) rest

end Reading
end PhraseArithmetic.Wire
