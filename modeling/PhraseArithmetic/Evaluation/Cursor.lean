import PhraseArithmetic.Evaluation

/-!
# Walking a phrase by place

A cursor stands at a place among the tokens and holds what has been found so far. A step reads the
token in its place and, after an operand, the two tokens behind it. Walking from the start gives
what evaluation gives.
-/
namespace PhraseArithmetic

/-- `pending` stands in the place of the operator that the next operand is applied by. -/
structure Cursor where
  place : Nat
  value : Int64
  pending : Token
  started : Bool
  deriving DecidableEq, Repr

namespace Cursor

/-- A cursor strays when it has read an operand and then stands at a word. -/
inductive Move where
  | advance (next : Cursor)
  | finish (value : Int64)
  | stray (value : Int64)
  | refuse (fault : Fault)
  deriving DecidableEq, Repr

/-- The first operand is added to zero. -/
def start : Cursor := ⟨0, 0, .operator .plus, false⟩

/-- Goes on from an operand by the two tokens behind it. -/
def proceed (c : Cursor) (tokens : List Token) (value : Int64) : Move :=
  match tokens[c.place + 1]?, tokens[c.place + 2]? with
  | none, _ => .advance ⟨c.place + 1, value, c.pending, true⟩
  | some next, some (.number _) => .advance ⟨c.place + 2, value, next, true⟩
  | some (.unrecognized _), none => .finish value
  | _, _ => .refuse .invalidSyntax

/-- Applies the operand in the cursor's place. -/
def operand (c : Cursor) (tokens : List Token) (n : Int64) : Move :=
  match c.pending with
  | .operator o =>
    match o.apply c.value n with
    | .ok value => c.proceed tokens value
    | .error fault => .refuse fault
  | _ => .refuse .unsupportedOperator

def step (c : Cursor) (tokens : List Token) : Move :=
  match tokens[c.place]? with
  | none => if c.started then .finish c.value else .refuse .noNumberFound
  | some (.number n) => c.operand tokens n
  | some _ =>
    if c.started then .stray c.value else .advance ⟨c.place + 1, c.value, c.pending, false⟩

theorem place_lt_of_proceed {c next : Cursor} {tokens : List Token} {value : Int64}
    (h : c.proceed tokens value = .advance next) : c.place < next.place := by
  unfold proceed at h
  split at h <;> simp at h <;> subst h <;> simp

theorem proceed_of_operand {c next : Cursor} {tokens : List Token} {n : Int64}
    (h : c.operand tokens n = .advance next) : ∃ value, c.proceed tokens value = .advance next := by
  unfold operand at h
  split at h
  · split at h
    · exact ⟨_, h⟩
    · simp at h
  · simp at h

theorem place_lt_of_step {c next : Cursor} {tokens : List Token}
    (h : c.step tokens = .advance next) : c.place < tokens.length ∧ c.place < next.place := by
  unfold step at h
  split at h
  · split at h <;> simp at h
  · rename_i hn
    obtain ⟨value, hv⟩ := proceed_of_operand h
    exact ⟨(List.getElem?_eq_some_iff.1 hn).1, place_lt_of_proceed hv⟩
  · rename_i ht
    split at h <;> simp at h
    subst h
    exact ⟨(List.getElem?_eq_some_iff.1 ht).1, Nat.lt_succ_self _⟩

/-- Steps until the cursor does not advance. -/
def walk (tokens : List Token) (c : Cursor) : Except Fault Int64 :=
  match _h : c.step tokens with
  | .advance next => walk tokens next
  | .finish value | .stray value => .ok value
  | .refuse fault => .error fault
termination_by tokens.length - c.place
decreasing_by
  have := place_lt_of_step ‹_›
  omega

theorem walk_advance {c d : Cursor} {tokens : List Token} (h : c.step tokens = .advance d) :
    walk tokens c = walk tokens d := by
  rw [walk.eq_def]
  split <;> simp_all

theorem walk_finish {c : Cursor} {tokens : List Token} {value : Int64}
    (h : c.step tokens = .finish value) : walk tokens c = .ok value := by
  rw [walk.eq_def]
  split <;> simp_all

theorem walk_refuse {c : Cursor} {tokens : List Token} {f : Fault}
    (h : c.step tokens = .refuse f) : walk tokens c = .error f := by
  rw [walk.eq_def]
  split <;> simp_all

/-- Past the last token a started cursor has found its value. -/
theorem walk_end {c : Cursor} {tokens : List Token} (hp : c.place = tokens.length)
    (hs : c.started = true) : walk tokens c = .ok c.value :=
  walk_finish (by simp [step, hp, hs])

/-- From an operand on, walking gives what the operand does after its pending word. -/
theorem walk_operand (before : List Token) (n : Int64) (rest : List Token) (value : Int64)
    (pending : Token) (started : Bool) :
    walk (before ++ .number n :: rest) ⟨before.length, value, pending, started⟩ =
      Token.evaluateFrom value (pending :: .number n :: rest) := by
  induction hl : rest.length using Nat.strongRecOn
    generalizing before n rest value pending started with
  | ind k ih =>
    cases pending with
    | number m => exact walk_refuse (by simp [step, operand])
    | unrecognized w => exact walk_refuse (by simp [step, operand])
    | operator o =>
      cases ha : o.apply value n with
      | error fault =>
        rw [walk_refuse (f := fault) (by simp [step, operand, ha])]
        simp [Token.evaluateFrom, ha]
      | ok v =>
        simp only [Token.evaluateFrom, ha]
        match rest with
        | [] =>
          rw [walk_advance (d := ⟨before.length + 1, v, .operator o, true⟩)
            (by simp [step, operand, ha, proceed])]
          exact walk_end (by simp) rfl
        | [t] => cases t with
          | unrecognized w => exact walk_finish (by simp [step, operand, ha, proceed])
          | number m => exact walk_refuse (by simp [step, operand, ha, proceed])
          | operator p => exact walk_refuse (by simp [step, operand, ha, proceed])
        | t :: .number m :: rest =>
          rw [walk_advance (d := ⟨before.length + 2, v, t, true⟩)
            (by simp [step, operand, ha, proceed])]
          simpa using
            ih rest.length (by simp at hl; omega) (before ++ [.number n, t]) m rest v t true rfl
        | t :: .operator p :: rest =>
          rw [walk_refuse (f := .invalidSyntax)
            (by cases t <;> simp [step, operand, ha, proceed])]
          simp [Token.evaluateFrom]
        | t :: .unrecognized w :: rest =>
          rw [walk_refuse (f := .invalidSyntax)
            (by cases t <;> simp [step, operand, ha, proceed])]
          simp [Token.evaluateFrom]

/-- What stands before an unstarted cursor does not matter. -/
theorem walk_append (before rest : List Token) :
    walk (before ++ rest) ⟨before.length, 0, .operator .plus, false⟩ = Token.evaluate rest := by
  induction rest generalizing before with
  | nil => exact walk_refuse (by simp [step])
  | cons t rest ih =>
    have hs := ih (before ++ [t])
    rw [List.append_assoc, List.singleton_append] at hs
    cases t with
    | number n =>
      simp [walk_operand, Token.evaluateFrom, Operator.apply, Operator.combine, Token.evaluate]
    | operator o => exact (walk_advance (by simp [step])).trans hs
    | unrecognized w => exact (walk_advance (by simp [step])).trans hs

theorem walk_start (tokens : List Token) : walk tokens start = Token.evaluate tokens :=
  walk_append [] tokens

end Cursor
end PhraseArithmetic
