import Mathlib.Data.Nat.Find
import PhraseArithmetic.Proofs.Validation.Agreement

/-!
# What validity depends on

A phrase with a number is valid unless some number has a token right behind it that is no operator.
The leftmost such number decides, and what stands behind it says what is wrong. Of the numbers
themselves nothing counts but their places, and all other tokens count for nothing.
-/
namespace PhraseArithmetic.Token

/-- The number at place `j` is neither last nor followed by an operator. -/
def BreaksAt (tokens : List Token) (j : Nat) : Prop :=
  ∃ n t, tokens[j]? = some (number n) ∧ tokens[j + 1]? = some t ∧ t.isOperator = false

/-- What a token is, without its value, its operation and its word. -/
inductive Shape where
  | number
  | operator
  | unrecognized
  deriving DecidableEq, Repr

def shape : Token → Shape
  | number _ => .number
  | operator _ => .operator
  | unrecognized _ => .unrecognized

/-- What stands right behind each number, the leftmost number first. -/
def behindNumbers : List Token → List (Option Shape)
  | [] => []
  | number _ :: rest => rest.head?.map shape :: behindNumbers rest
  | _ :: rest => behindNumbers rest

section
variable {tokens rest : List Token} {t : Token} {j : Nat}

theorem breaksAt_cons_succ : BreaksAt (t :: rest) (j + 1) ↔ BreaksAt rest j := by
  simp only [BreaksAt, List.getElem?_cons_succ]

theorem breaksAt_zero_iff {n : Int64} :
    BreaksAt (number n :: rest) 0 ↔ ∃ t, rest.head? = some t ∧ t.isOperator = false := by
  simp [BreaksAt, List.head?_eq_getElem?]

theorem followerFault?_eq_none_iff {follower : Option Token} :
    followerFault? follower = none ↔ ∀ t, follower = some t → t.isOperator = true := by
  rcases follower with - | t
  · simp [followerFault?]
  · cases t <;> simp [followerFault?, isOperator]

/-- A first token that breaks nothing is only remembered for being a number. -/
theorem validateFrom_cons (h : ¬BreaksAt (t :: rest) 0) (found : Bool) :
    validateFrom found (t :: rest) = validateFrom (found || t.isNumber) rest := by
  cases t with
  | operator o => simp [validateFrom, isNumber]
  | unrecognized w => simp [validateFrom, isNumber]
  | number n =>
    have hnone : followerFault? rest.head? = none := by
      rw [followerFault?_eq_none_iff]
      intro u hu
      by_contra hop
      exact h (breaksAt_zero_iff.2 ⟨u, hu, by simpa using hop⟩)
    simp [validateFrom, hnone, isNumber]

theorem validateFrom_of_forall_not_breaksAt (h : ∀ j, ¬BreaksAt tokens j) (found : Bool) :
    validateFrom found tokens =
      if found || tokens.any isNumber then .ok () else .error .nonMathQuestion := by
  induction tokens generalizing found with
  | nil => cases found <;> rfl
  | cons t rest ih =>
    have hrest : ∀ j, ¬BreaksAt rest j := fun j hj => h (j + 1) (breaksAt_cons_succ.2 hj)
    rw [validateFrom_cons (h 0), ih hrest, List.any_cons, Bool.or_assoc]

/-- The leftmost number with a wrong token behind it decides, whatever has been seen before. -/
theorem validateFrom_of_breaksAt (hj : BreaksAt tokens j) (hleast : ∀ i < j, ¬BreaksAt tokens i)
    (found : Bool) :
    ∃ fault, followerFault? tokens[j + 1]? = some fault ∧
      validateFrom found tokens = .error fault := by
  induction tokens generalizing j found with
  | nil =>
    obtain ⟨n, t, hn, -⟩ := hj
    simp at hn
  | cons t rest ih =>
    cases j with
    | zero =>
      obtain ⟨n, u, hn, hu, hop⟩ := hj
      obtain rfl : t = number n := by simpa using hn
      have hhead : rest.head? = some u := by simpa [List.head?_eq_getElem?] using hu
      rw [hu]
      cases u with
      | operator o => simp [isOperator] at hop
      | number m => exact ⟨_, rfl, by simp [validateFrom, hhead, followerFault?]⟩
      | unrecognized w => exact ⟨_, rfl, by simp [validateFrom, hhead, followerFault?]⟩
    | succ j =>
      have hrest : ∀ i < j, ¬BreaksAt rest i :=
        fun i hi hb => hleast (i + 1) (by omega) (breaksAt_cons_succ.2 hb)
      rw [validateFrom_cons (hleast 0 (by omega)), List.getElem?_cons_succ]
      exact ih (breaksAt_cons_succ.1 hj) hrest _

theorem validate_eq_ok_iff_forall_not_breaksAt :
    validate tokens = .ok () ↔
      (∃ t ∈ tokens, t.isNumber = true) ∧ ∀ j, ¬BreaksAt tokens j := by
  by_cases h : ∃ j, BreaksAt tokens j
  · classical
    obtain ⟨fault, -, hv⟩ := validateFrom_of_breaksAt (Nat.find_spec h)
      (fun i hi => Nat.find_min h hi) false
    rw [validate, hv]
    simp [h]
  · have hnone : ∀ j, ¬BreaksAt tokens j := not_exists.1 h
    rw [validate, validateFrom_of_forall_not_breaksAt hnone]
    simp [hnone]

theorem not_breaksAt_iff : ¬BreaksAt tokens j ↔ ∀ n, tokens[j]? = some (number n) →
    j + 1 = tokens.length ∨ ∃ o, tokens[j + 1]? = some (operator o) := by
  constructor
  · intro h n hn
    cases ht : tokens[j + 1]? with
    | none =>
      have hj := (List.getElem?_eq_some_iff.1 hn).1
      have hlength := List.getElem?_eq_none_iff.1 ht
      exact .inl (by omega)
    | some t =>
      cases t with
      | operator o => exact .inr ⟨o, rfl⟩
      | number m => exact absurd ⟨n, _, hn, ht, rfl⟩ h
      | unrecognized w => exact absurd ⟨n, _, hn, ht, rfl⟩ h
  · rintro h ⟨n, t, hn, ht, hop⟩
    rcases h n hn with hlast | ⟨o, ho⟩
    · have hj := (List.getElem?_eq_some_iff.1 ht).1
      omega
    · rw [ho] at ht
      simp [← Option.some.inj ht, isOperator] at hop

theorem exists_isNumber_iff : (∃ t ∈ tokens, t.isNumber = true) ↔ ∃ n, number n ∈ tokens := by
  constructor
  · rintro ⟨t, ht, hn⟩
    cases t with
    | number n => exact ⟨n, ht⟩
    | operator o => simp [isNumber] at hn
    | unrecognized w => simp [isNumber] at hn
  · rintro ⟨n, hn⟩
    exact ⟨number n, hn, rfl⟩

end

/-- The verdict on what stands behind the numbers that are left. -/
def verdict (found : Bool) : List (Option Shape) → Except Fault Unit
  | [] => if found then .ok () else .error .nonMathQuestion
  | some .number :: _ => .error .invalidSyntax
  | some .unrecognized :: _ => .error .unsupportedOperations
  | _ :: rest => verdict true rest

theorem validateFrom_eq_verdict (found : Bool) (tokens : List Token) :
    validateFrom found tokens = verdict found (behindNumbers tokens) := by
  induction tokens generalizing found with
  | nil => rfl
  | cons t rest ih =>
    cases t with
    | operator o => exact ih found
    | unrecognized w => exact ih found
    | number n =>
      cases hhead : rest.head? with
      | none => simp [validateFrom, behindNumbers, followerFault?, verdict, hhead, ih]
      | some u =>
        cases u <;> simp [validateFrom, behindNumbers, followerFault?, shape, verdict, hhead, ih]

theorem behindNumbers_append_of_forall {between : List Token}
    (h : ∀ t ∈ between, t.isNumber = false) (rest : List Token) :
    behindNumbers (between ++ rest) = behindNumbers rest := by
  induction between with
  | nil => rfl
  | cons t between ih =>
    have ih := ih fun u hu => h u (List.mem_cons_of_mem t hu)
    cases t with
    | number n => exact absurd (h (number n) (by simp)) (by simp [isNumber])
    | operator o => exact ih
    | unrecognized w => exact ih

/-- Where no number ends the front, both parts are looked at apart. -/
theorem behindNumbers_append {front : List Token} (h : ∀ n, front.getLast? ≠ some (number n))
    (rest : List Token) :
    behindNumbers (front ++ rest) = behindNumbers front ++ behindNumbers rest := by
  induction front with
  | nil => rfl
  | cons t front ih =>
    cases front with
    | nil =>
      cases t with
      | number n => exact absurd rfl (h n)
      | operator o => rfl
      | unrecognized w => rfl
    | cons u front =>
      have ih := ih fun n hn => h n (by rw [List.getLast?_cons_cons, hn])
      cases t with
      | number n => exact congrArg (_ :: ·) ih
      | operator o => exact ih
      | unrecognized w => exact ih

/-- A phrase is valid when it has a number and every number is last or has an operator right behind
it. Otherwise the leftmost number for which this fails decides. Phrases with the same tokens behind
their numbers, up to what these say, have the same verdict, so other tokens than numbers may come
and go wherever they do not stand behind a number. -/
theorem validate_decided_behind_numbers (tokens : List Token) :
    (validate tokens = .ok () ↔ (∃ n, number n ∈ tokens) ∧
      ∀ j n, tokens[j]? = some (number n) →
        j + 1 = tokens.length ∨ ∃ o, tokens[j + 1]? = some (operator o)) ∧
    ((∀ n, number n ∉ tokens) → validate tokens = .error .nonMathQuestion) ∧
    (∀ j, BreaksAt tokens j → (∀ i < j, ¬BreaksAt tokens i) →
      (∀ m, tokens[j + 1]? = some (number m) → validate tokens = .error .invalidSyntax) ∧
        ∀ w, tokens[j + 1]? = some (unrecognized w) →
          validate tokens = .error .unsupportedOperations) ∧
    (∀ other, behindNumbers other = behindNumbers tokens → validate other = validate tokens) ∧
    ∀ front between back other, tokens = front ++ between ++ back →
      (∀ n, front.getLast? ≠ some (number n)) → (∀ t ∈ between, t.isNumber = false) →
        (∀ t ∈ other, t.isNumber = false) → validate (front ++ other ++ back) = validate tokens := by
  refine ⟨?_, ?_, ?_, ?_, ?_⟩
  · rw [validate_eq_ok_iff_forall_not_breaksAt, exists_isNumber_iff]
    simp only [not_breaksAt_iff]
  · intro hnone
    apply validate_of_forall_isNumber
    intro t ht
    by_contra hn
    obtain ⟨n, hmem⟩ := exists_isNumber_iff.1 ⟨t, ht, by simpa using hn⟩
    exact hnone n hmem
  · intro j hj hleast
    obtain ⟨fault, hfault, hv⟩ := validateFrom_of_breaksAt hj hleast false
    rw [validate, hv]
    constructor
    · intro m hm
      simpa [hm, followerFault?, eq_comm] using hfault
    · intro w hw
      simpa [hw, followerFault?, eq_comm] using hfault
  · intro other hbehind
    rw [validate, validate, validateFrom_eq_verdict, validateFrom_eq_verdict, hbehind]
  · rintro front between back other rfl hfront hbetween hother
    rw [validate, validate, validateFrom_eq_verdict, validateFrom_eq_verdict, List.append_assoc,
      List.append_assoc, behindNumbers_append hfront, behindNumbers_append hfront,
      behindNumbers_append_of_forall hbetween, behindNumbers_append_of_forall hother]

/-- Two numbers break the rule, and the left one decides. -/
example : validate [operator .plus, number 5, operator .divided, number 0, unrecognized "by",
    number 3, number 4] = .error .unsupportedOperations := by decide

end PhraseArithmetic.Token
