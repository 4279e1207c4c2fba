import PhraseArithmetic.Token

/-!
# Validating a phrase

Only what stands right after a number is looked at: it must be an operator or nothing at all. The
leftmost number with another follower decides. What follows an operator is not looked at.
-/
namespace PhraseArithmetic.Token

/-- The fault of a token in the place right after a number. -/
def followerFault? : Option Token → Option Fault
  | some (number _) => some .invalidSyntax
  | some (unrecognized _) => some .unsupportedOperations
  | some (operator _) | none => none

/-- The leftmost fault, read from a place where `found` tells whether a number has been seen. -/
def validateFrom (found : Bool) : List Token → Except Fault Unit
  | [] => if found then .ok () else .error .nonMathQuestion
  | number _ :: rest =>
    match followerFault? rest.head? with
    | some fault => .error fault
    | none => validateFrom true rest
  | _ :: rest => validateFrom found rest

def validate (tokens : List Token) : Except Fault Unit := validateFrom false tokens

theorem fault_of_validateFrom {found : Bool} {tokens : List Token} {fault : Fault}
    (h : validateFrom found tokens = .error fault) :
    fault = .invalidSyntax ∨ fault = .unsupportedOperations ∨ fault = .nonMathQuestion := by
  fun_induction validateFrom found tokens with
  | case1 => simp at h
  | case2 => simp [← Except.error.inj h]
  | case3 found n rest other hother =>
    rw [Except.error.inj h] at hother
    unfold followerFault? at hother
    split at hother <;> simp at hother <;> simp [← hother]
  | case4 found n rest _ ih => exact ih h
  | case5 found t rest _ ih => exact ih h

end PhraseArithmetic.Token
