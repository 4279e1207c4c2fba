import PhraseArithmetic.Launch.Pattern
import PhraseArithmetic.Log
import PhraseArithmetic.Text.Numeral
import PhraseArithmetic.Text.Parts

/-!
# Filter directives

A directive sets the level up to which events pass. It may name a target, a span and a field, as in
`target[span{field=value}]=level`, and each of them may be left out; a level alone is a directive
for every target.
-/
namespace PhraseArithmetic.Launch
open Log (Level)

def limitNames : List (String × Nat) :=
  [("off", 0), ("error", 1), ("warn", 2), ("info", 3), ("debug", 4), ("trace", 5)]

/-- A level by name, in any case, or by number. -/
def limit? (text : List Char) : Option Nat :=
  match Text.unsigned? 64 text with
  | some n => if n ≤ Level.trace.detail then some n else none
  | none => limitNames.lookup (String.ofList (text.map Char.toLower))

inductive DirectiveFault where
  | form
  | level
  | field (fault : PatternFault)
  deriving DecidableEq, Repr

def PatternFault.message : PatternFault → String
  | malformed => "error building NFA"
  | wideBoundary =>
    "unsupported regex feature for DFAs: cannot build DFAs for regexes with Unicode word " ++
      "boundaries; switch to ASCII word boundaries, or heuristically enable Unicode word " ++
      "boundaries or use a different regex engine"

def DirectiveFault.message : DirectiveFault → String
  | form => "invalid filter directive"
  | level =>
    "error parsing level filter: expected one of \"off\", \"error\", \"warn\", \"info\", " ++
      "\"debug\", \"trace\", or a number 0-5"
  | field f => s!"invalid field filter: {f.message}"

/-- A field that a span or an event has to have, and the value it has to have there. -/
structure FieldFilter where
  name : List Char
  value : Option (List Char)
  deriving DecidableEq, Repr

namespace FieldFilter

def magnitudeNames : List String := ["inf", "infinity", "nan"]

/-- A decimal number with an optional sign, point and exponent, or the name of a limit. -/
def isDecimal (text : List Char) : Bool :=
  let unsigned := match text with
    | '+' :: rest | '-' :: rest => rest
    | _ => text
  let isMantissa := fun c => c ≠ 'e' && c ≠ 'E'
  let mantissa := unsigned.takeWhile isMantissa
  let hasExponent := match unsigned.dropWhile isMantissa with
    | [] => true
    | _ :: exponent => (Text.integer? exponent).isSome
  magnitudeNames.contains (String.ofList (unsigned.map Char.toLower)) ||
    ((Text.natural? (mantissa.filter (· ≠ '.'))).isSome && mantissa.count '.' ≤ 1 && hasExponent)

/-- A value is a number or a pattern; what stands after a second equals sign is ignored. -/
def parse (text : List Char) : Except DirectiveFault FieldFilter :=
  match Text.parts '=' text with
  | name :: value :: _ =>
    if isDecimal value then .ok ⟨name, some value⟩
    else match Pattern.fault? value with
      | some f => .error (.field f)
      | none => .ok ⟨name, some value⟩
  | _ => .ok ⟨text, none⟩

end FieldFilter

structure Directive where
  target : Option (List Char)
  /-- The name of a span, which may be empty. -/
  span : Option (List Char)
  field : Option FieldFilter
  /-- Up to which detail events pass; zero is off. -/
  limit : Nat
  deriving DecidableEq, Repr

namespace Directive

def everything : Directive := ⟨none, none, none, Level.trace.detail⟩

def errors : Directive := ⟨none, none, none, Level.error.detail⟩

/-- What is being read of a directive, and the octet where it began. -/
inductive Stage where
  | start
  | name
  | span (first : Nat)
  | field (first : Nat)
  | afterField
  | afterSpan
  | level (first : Nat)
  deriving DecidableEq, Repr

/-- The characters from one octet of a text up to another. An octet inside of a character is no
place to cut a directive. -/
def cut (text : List Char) (first last : Nat) : Except DirectiveFault (List Char) :=
  let octets := (String.ofList text).toUTF8.extract first last
  match String.fromUTF8? octets with
  | some s => .ok s.toList
  | none => .error .form

def mayBegin (c : Char) : Bool := c = '-' || c = ':' || c = '_' || Text.isAlphanumeric c

variable (text : List Char)

/-- Reads the character at an octet. -/
def step (d : Directive) (stage : Stage) (place : Nat) (c : Char) :
    Except DirectiveFault (Directive × Stage) :=
  match stage, c with
  | .start, '[' => .ok (d, .span (place + 1))
  | .start, c => if mayBegin c then .ok (d, .name) else .error .form
  | .name, '=' => do return ({ d with target := some (← cut text 0 place) }, .level (place + 1))
  | .name, '[' => do return ({ d with target := some (← cut text 0 place) }, .span (place + 1))
  | .span first, ']' => do return ({ d with span := some (← cut text first place) }, .afterSpan)
  | .span first, '{' => do
    let span ← cut text first place
    return ({ d with span := if span.isEmpty then none else some span }, .field (place + 1))
  | .field first, '}' => do
    let field ← cut text first place
    if field.isEmpty then throw .form
    return ({ d with field := some (← FieldFilter.parse field) }, .afterField)
  | .afterField, ']' => .ok (d, .afterSpan)
  | .afterSpan, '=' => .ok (d, .level (place + 1))
  | .afterField, _ | .afterSpan, _ => .error .form
  | stage, _ => .ok (d, stage)

/-- Reads the characters from an octet on. -/
def read (d : Directive) (stage : Stage) (place : Nat) :
    List Char → Except DirectiveFault (Directive × Stage)
  | [] => .ok (d, stage)
  | c :: rest => do
    let (d, stage) ← d.step text stage place c
    d.read stage (place + c.utf8Size) rest

/-- Everything passes where the level is left out. -/
def finish (d : Directive) : Stage → Except DirectiveFault Directive
  | .name =>
    match limit? text with
    | some n => .ok { d with limit := n }
    | none => .ok { d with target := some text }
  | .level first => do
    let level ← cut text first (String.ofList text).utf8ByteSize
    if level.isEmpty then return d
    match limit? level with
    | some n => return { d with limit := n }
    | none => throw .level
  | .afterSpan => .ok d
  | _ => .error .form

def trim (text : List Char) : List Char :=
  ((text.dropWhile Text.isBlank).reverse.dropWhile Text.isBlank).reverse

/-- Reads a directive. Its form is that of the text without the blanks at both ends, while its
parts are cut out of the whole text at the octets where they stand in that form: blanks in front
move them. -/
def parse : Except DirectiveFault Directive := do
  let (d, stage) ← everything.read text .start 0 (trim text)
  d.finish text stage

/-- A directive for spans, or for a value of a field, concerns no event outside of them. -/
def concernsEvents (d : Directive) : Bool :=
  d.span.isNone && d.field.all fun f => f.value.isNone

/-- Every event has one field, its message. -/
def eventFields : List (List Char) := ["message".toList]

def fits (d : Directive) (source : List Char) : Bool :=
  d.concernsEvents && d.target.all (·.isPrefixOf source) &&
    d.field.all fun f => eventFields.contains f.name

/-- A longer target is more specific than a shorter one or none, then a field than no field. -/
def weight (d : Directive) : Nat :=
  2 * (d.target.map fun t => t.length + 1).getD 0 + (if d.field.isSome then 1 else 0)

end Directive
end PhraseArithmetic.Launch
