import PhraseArithmetic.Json.Magnitude
import PhraseArithmetic.Wire.Format
import PhraseArithmetic.Wire.Ignored

/-!
# Reading messages

A message is an object with each of its fields once, among any unknown members, or an array of the
fields' values in order. Reading goes from the left and stops at the first defect: text that is not
JSON is malformed, and JSON of another shape is a mismatch as soon as it shows.
-/
namespace PhraseArithmetic.Wire
open Json (Lexeme)

inductive Defect where
  | malformed
  | mismatch
  deriving DecidableEq, Repr

/-- The defect of a lexeme that stands where a value of another kind is wanted. -/
def refusal : Lexeme → Defect
  | .literal | .beginArray | .beginObject => .mismatch
  | .number text => if Json.inDoubleRange text then .mismatch else .malformed
  | .string text => if text.isSome then .mismatch else .malformed
  | _ => .malformed

def Kind.read (k : Kind) (l : Lexeme) : Except Defect Value :=
  match k, l with
  | .text, .string (some s) => .ok (.text s)
  | .count, .number digits =>
    match Text.natural? digits with
    | some n => if n < UInt64.size then .ok (.count (UInt64.ofNat n)) else .error (refusal l)
    | none => .error (refusal l)
  | _, l => .error (refusal l)

/-- Where reading stands: what the next lexeme may be. -/
inductive Place where
  | opening
  | firstKey
  | key
  | colon (field : Option Field)
  | member (field : Field)
  | ignored (value : Ignored)
  | afterMember
  | firstElement
  | element (field : Field) (rest : List Field)
  | afterElement (rest : List Field)
  | closed
  deriving DecidableEq, Repr

/-- `found` holds the members read so far, in order. -/
structure Reading where
  place : Place
  found : Members
  deriving DecidableEq, Repr

namespace Reading

def start : Reading := ⟨.opening, []⟩

def goto (r : Reading) (p : Place) : Reading := ⟨p, r.found⟩

def add (r : Reading) (name : String) (v : Value) (p : Place) : Reading :=
  ⟨p, r.found ++ [(name, v)]⟩

variable (fields : List Field)

/-- A known key may not come twice. -/
def keyStep (r : Reading) : Lexeme → Except Defect Reading
  | .string (some name) =>
    match fields.find? (·.name == name) with
    | some field =>
      if r.found.any (·.1 == name) then .error .mismatch else .ok (r.goto (.colon (some field)))
    | none => .ok (r.goto (.colon none))
  | _ => .error .malformed

def elementStep (r : Reading) (field : Field) (rest : List Field) (l : Lexeme) :
    Except Defect Reading := do
  let v ← field.kind.read l
  .ok (r.add field.name v (.afterElement rest))

def step (r : Reading) (l : Lexeme) : Except Defect Reading :=
  match r.place, l with
  | .opening, .beginObject => .ok (r.goto .firstKey)
  | .opening, .beginArray => .ok (r.goto .firstElement)
  | .opening, l => .error (refusal l)
  | .firstKey, .endObject => .ok (r.goto .closed)
  | .firstKey, l | .key, l => r.keyStep fields l
  | .colon (some field), .colon => .ok (r.goto (.member field))
  | .colon none, .colon => .ok (r.goto (.ignored .start))
  | .member field, l => do
    let v ← field.kind.read l
    .ok (r.add field.name v .afterMember)
  | .ignored i, l =>
    match i.step l with
    | some next => .ok (r.goto (if next.isFinished then .afterMember else .ignored next))
    | none => .error .malformed
  | .afterMember, .comma => .ok (r.goto .key)
  | .afterMember, .endObject => .ok (r.goto .closed)
  | .firstElement, l =>
    match fields, l with
    | [], .endArray => .ok (r.goto .closed)
    | [], _ => .error .malformed
    | _ :: _, .endArray => .error .mismatch
    | field :: rest, l => r.elementStep field rest l
  | .element field rest, l => r.elementStep field rest l
  | .afterElement [], .endArray => .ok (r.goto .closed)
  | .afterElement (_ :: _), .endArray => .error .mismatch
  | .afterElement (field :: rest), .comma => .ok (r.goto (.element field rest))
  | _, _ => .error .malformed

/-- The members of a whole message and the lexemes after it. -/
def run (r : Reading) (lexemes : List Lexeme) : Except Defect (Members × List Lexeme) :=
  match r.place, lexemes with
  | .closed, rest => .ok (r.found, rest)
  | _, [] => .error .malformed
  | _, l :: rest =>
    match r.step fields l with
    | .ok next => next.run rest
    | .error defect => .error defect

theorem run_cons {r t : Reading} {l : Lexeme} (h : r.place ≠ .closed)
    (hs : r.step fields l = .ok t) (rest : List Lexeme) :
    r.run fields (l :: rest) = t.run fields rest := by
  rw [run.eq_def]
  split
  · next he => exact absurd he h
  · next he _ => simp at he
  · next he _ => obtain ⟨rfl, rfl⟩ := List.cons.inj he; simp [hs]

theorem run_cons_error {r : Reading} {l : Lexeme} {defect : Defect} (h : r.place ≠ .closed)
    (hs : r.step fields l = .error defect) (rest : List Lexeme) :
    r.run fields (l :: rest) = .error defect := by
  rw [run.eq_def]
  split
  · next he => exact absurd he h
  · next he _ => simp at he
  · next he _ => obtain ⟨rfl, rfl⟩ := List.cons.inj he; simp [hs]

end Reading

namespace Format

variable {α : Type} (f : Format α)

/-- Reads one message and leaves the lexemes after it; a missing field is a mismatch. -/
def readFirst (lexemes : List Lexeme) : Except Defect (α × List Lexeme) :=
  match Reading.start.run f.fields lexemes with
  | .ok (members, rest) =>
    match f.ofMembers? members with
    | some message => .ok (message, rest)
    | none => .error .mismatch
  | .error defect => .error defect

/-- Decodes the first message of a text; what follows it is not looked at. -/
def decodeFirst (text : List Text.Symbol) : Except Defect α :=
  (f.readFirst (Json.lexemes text)).map Prod.fst

/-- Decodes a text that is one message and nothing else. -/
def decode (text : List Text.Symbol) : Except Defect α :=
  match f.readFirst (Json.lexemes text) with
  | .ok (message, []) => .ok message
  | .ok (_, _ :: _) => .error .malformed
  | .error defect => .error defect

end Format
end PhraseArithmetic.Wire
