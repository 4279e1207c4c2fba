import Mathlib.Logic.Function.Basic
import PhraseArithmetic.Service

/-!
# What asking does to a ledger

Whether asking about a phrase gives an answer or a fault, and which, is decided by the phrase alone.
An answer leaves the ledger as it was. A fault is counted under its own kind; the failure that is
given back, the record that it reports and the record in the ledger are the same, and nothing else
in the ledger is touched.
-/
namespace PhraseArithmetic

/-- The failure is the one occurrence by which the two ledgers differ. -/
structure Failure.IsCounted (f : Failure) (before after : Ledger) : Prop where
  first : before.get? f.kind = none → f.frequency = 1
  next : ∀ r, before.get? f.kind = some r → f.frequency = r.frequency + 1
  next_toNat : ∀ r, before.get? f.kind = some r → r.frequency.toNat + 1 < UInt64.size →
    f.frequency.toNat = r.frequency.toNat + 1
  get?_kind : after.get? f.kind = some f.toRecord
  get?_of_ne : ∀ kind, kind ≠ f.kind → after.get? kind = before.get? kind

/-- The reply to a question about a phrase, put with this ledger to this endpoint, says what the
verdict on the phrase says. -/
structure Reply.Follows {α : Type} (reply : Reply) (before : Ledger) (endpoint phrase : String)
    (verdict : Except Fault α) (answer : α → Answer) : Prop where
  answered_iff : ∀ a, reply.result = .ok (answer a) ↔ verdict = .ok a
  unchanged : ∀ a, verdict = .ok a → reply.ledger = before
  failed : ∀ fault, verdict = .error fault → ∃ f : Failure, reply.result = .error f ∧
    f.fault = fault ∧ f.expression = phrase ∧ f.endpoint = endpoint ∧
      f.IsCounted before reply.ledger

namespace Ledger

theorem isCounted_failure (l : Ledger) (fault : Fault) (endpoint expression : String) :
    (l.failure fault endpoint expression).IsCounted l
      (l.increment ⟨fault.kind, endpoint, expression⟩) where
  first h := frequency_recount_of_none (o := ⟨fault.kind, endpoint, expression⟩) h
  next r h := frequency_recount_of_some (o := ⟨fault.kind, endpoint, expression⟩) h
  next_toNat r h hsize := by
    have hfrequency := frequency_recount_of_some (o := ⟨fault.kind, endpoint, expression⟩) h
    have hword : (l.failure fault endpoint expression).frequency = r.frequency + 1 := hfrequency
    rw [hword, UInt64.toNat_add]
    exact Nat.mod_eq_of_lt hsize
  get?_kind := get?_increment_self l ⟨fault.kind, endpoint, expression⟩
  get?_of_ne kind h := get?_increment_of_ne l (Ne.symm h)

end Ledger

namespace Inquiry

theorem ask_follows {α : Type} {q : Inquiry} {phrase : String} {verdict : Except Fault α}
    {answer : α → Answer} (hanswer : Function.Injective answer)
    (h : q.judge phrase = verdict.map answer) (l : Ledger) :
    (q.ask phrase l).Follows l q.endpoint.path phrase verdict answer := by
  cases verdict with
  | ok a =>
    rw [ask_of_ok h]
    refine ⟨fun b => ?_, fun _ _ => rfl, fun _ hfault => by simp at hfault⟩
    rw [Except.ok.injEq, Except.ok.injEq, hanswer.eq_iff]
  | error fault =>
    rw [ask_of_error h]
    refine ⟨fun b => by simp, fun b hb => by simp at hb, ?_⟩
    rintro other hother
    obtain rfl := Except.error.inj hother
    exact ⟨_, rfl, rfl, rfl, rfl, l.isCounted_failure fault _ phrase⟩

/-- Asking for the value and asking for the validity of a phrase, with any ledger: the outcome is
that of evaluation and of validation, a fault is counted once in the record of its kind alone, and
the ledger has no part in the outcome. -/
theorem ask_confined (phrase : String) (l : Ledger) :
    (value.ask phrase l).Follows l "/extractNumber" phrase
      (Token.evaluate (Token.scan phrase)) Answer.number ∧
    (validity.ask phrase l).Follows l "/validateExpression" phrase
      (Token.validate (Token.scan phrase)) (fun _ => Answer.valid) ∧
    ∀ (q : Inquiry) (l' : Ledger), (q.ask phrase l).result.mapError Failure.fault =
      (q.ask phrase l').result.mapError Failure.fault := by
  refine ⟨ask_follows ?_ rfl l, ask_follows ?_ rfl l, ?_⟩
  · intro m n h
    exact Answer.number.inj h
  · intro m n _
    rfl
  · intro q l'
    rw [mapError_fault_ask, mapError_fault_ask]

end Inquiry
end PhraseArithmetic
