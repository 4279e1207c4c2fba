import PhraseArithmetic.Endpoint
import PhraseArithmetic.Evaluation
import PhraseArithmetic.Ledger
import PhraseArithmetic.Validation

/-!
# Inquiries about a phrase

Two things can be asked of a phrase: its value and whether it is valid. The answer depends on the
phrase alone; a fault is also counted in a ledger.
-/
namespace PhraseArithmetic

inductive Inquiry where
  | value
  | validity
  deriving DecidableEq, Repr

inductive Answer where
  | number (value : Int64)
  | valid
  deriving DecidableEq, Repr

def Answer.text : Answer → String
  | number n => Text.decimal n.toInt
  | valid => "Expression is valid"

/-- What asking gives: the answer or the counted failure, the ledger's log and the ledger after. -/
structure Reply where
  result : Except Failure Answer
  log : List Log.Event
  ledger : Ledger

namespace Inquiry

def endpoint : Inquiry → Endpoint
  | value => .extractNumber
  | validity => .validateExpression

def judge (q : Inquiry) (phrase : String) : Except Fault Answer :=
  match q with
  | value => (Token.evaluate (Token.scan phrase)).map Answer.number
  | validity => (Token.validate (Token.scan phrase)).map fun _ => Answer.valid

def occurrence (q : Inquiry) (fault : Fault) (phrase : String) : Occurrence :=
  ⟨fault.kind, q.endpoint.path, phrase⟩

def ask (q : Inquiry) (phrase : String) (l : Ledger) : Reply :=
  match q.judge phrase with
  | .ok answer => ⟨.ok answer, [], l⟩
  | .error fault =>
    let o := q.occurrence fault phrase
    ⟨.error (l.failure fault o.endpoint o.expression), l.announcement o, l.increment o⟩

theorem ask_of_ok {q : Inquiry} {phrase : String} {a : Answer} (h : q.judge phrase = .ok a)
    (l : Ledger) : q.ask phrase l = ⟨.ok a, [], l⟩ := by simp [ask, h]

/-- A fault is counted once, and the failure is what the ledger then holds for its kind. -/
theorem ask_of_error {q : Inquiry} {phrase : String} {fault : Fault}
    (h : q.judge phrase = .error fault) (l : Ledger) :
    q.ask phrase l =
      ⟨.error (l.failure fault q.endpoint.path phrase),
        l.announcement (q.occurrence fault phrase), l.increment (q.occurrence fault phrase)⟩ := by
  simp [ask, h, occurrence]

/-- The answer or the fault is that of the phrase. -/
theorem mapError_fault_ask (q : Inquiry) (phrase : String) (l : Ledger) :
    (q.ask phrase l).result.mapError Failure.fault = q.judge phrase := by
  cases h : q.judge phrase with
  | ok a =>
    rw [ask_of_ok h]
    rfl
  | error fault =>
    rw [ask_of_error h]
    rfl

theorem judge_value_eq_error_iff {phrase : String} {fault : Fault} :
    value.judge phrase = .error fault ↔ Token.evaluate (Token.scan phrase) = .error fault := by
  cases h : Token.evaluate (Token.scan phrase) <;> simp [judge, h, Except.map]

theorem judge_validity_eq_error_iff {phrase : String} {fault : Fault} :
    validity.judge phrase = .error fault ↔ Token.validate (Token.scan phrase) = .error fault := by
  cases h : Token.validate (Token.scan phrase) <;> simp [judge, h, Except.map]

end Inquiry
end PhraseArithmetic
