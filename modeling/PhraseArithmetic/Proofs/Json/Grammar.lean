import PhraseArithmetic.Json.Lexeme
import PhraseArithmetic.Text.Numeral

/-!
# JSON texts and what they spell

A text spells a tree: members in their order, strings without their escapes and numerals as they
are written. Blanks may stand around every value and name. A unit out of its surrogate pair spells
no character.
-/
namespace PhraseArithmetic.Json

def IsDigits (digits : List Char) : Prop := digits ≠ [] ∧ ∀ d ∈ digits, d.isDigit = true

theorem IsDigits.natural?_eq {digits : List Char} (h : IsDigits digits) :
    Text.natural? digits = some (Nat.ofDigitChars 10 digits 0) := by
  rw [Text.natural?, if_pos ⟨h.1, List.all_eq_true.2 h.2⟩]

structure Exponent where
  mark : Char
  sign : List Char
  digits : List Char
  isMark : mark = 'e' ∨ mark = 'E'
  isSign : sign = [] ∨ sign = ['+'] ∨ sign = ['-']
  isDigits : IsDigits digits

namespace Exponent

def text (e : Exponent) : List Char := e.mark :: e.sign ++ e.digits

def value (e : Exponent) : Int :=
  let n := Nat.ofDigitChars 10 e.digits 0
  if e.sign = ['-'] then -Int.ofNat n else Int.ofNat n

end Exponent

structure Numeral where
  negative : Bool
  whole : List Char
  fraction : Option (List Char)
  exponent : Option Exponent
  isWhole : IsDigits whole
  noLeadingZero : whole = ['0'] ∨ whole.head? ≠ some '0'
  isFraction : ∀ digits ∈ fraction, IsDigits digits

namespace Numeral

def sign (n : Numeral) : List Char := if n.negative then ['-'] else []

def fractionText (n : Numeral) : List Char := n.fraction.elim [] ('.' :: ·)

def exponentText (n : Numeral) : List Char := n.exponent.elim [] Exponent.text

def text (n : Numeral) : List Char := n.sign ++ n.whole ++ n.fractionText ++ n.exponentText

/-- The numeral has neither a sign nor a fraction nor an exponent. -/
structure IsPlain (n : Numeral) : Prop where
  sign : n.negative = false
  fraction : n.fraction = none
  exponent : n.exponent = none

/-- The number that the digits before the point spell. -/
def wholeValue (n : Numeral) : Nat := Nat.ofDigitChars 10 n.whole 0

def fractionDigits (n : Numeral) : List Char := n.fraction.getD []

/-- The number that all digits before the exponent spell, and the power of ten that scales it. -/
def significand (n : Numeral) : Nat := Nat.ofDigitChars 10 (n.whole ++ n.fractionDigits) 0

def scale (n : Numeral) : Int := n.exponent.elim 0 Exponent.value - n.fractionDigits.length

/-- The magnitude is at most `bound`; a negative power of ten is taken to the other side. -/
def IsAtMost (n : Numeral) (bound : Nat) : Prop :=
  n.significand * Nat.pow 10 n.scale.toNat ≤ bound * Nat.pow 10 (-n.scale).toNat

instance (n : Numeral) (bound : Nat) : Decidable (n.IsAtMost bound) :=
  inferInstanceAs (Decidable (_ ≤ _))

end Numeral

/-- The one-letter escapes and what they stand for. -/
def letterEscapes : List (Char × Char) :=
  [('"', '"'), ('\\', '\\'), ('/', '/'), ('b', '\x08'), ('f', '\x0c'), ('n', '\n'), ('r', '\r'),
    ('t', '\t')]

/-- A hexadecimal digit in either case. -/
def IsHexadecimal (c : Char) (d : Nat) : Prop :=
  d < 16 ∧ (c = d.digitChar ∨ c = d.digitChar.toUpper)

inductive SpellsUnit : List Char → Nat → Prop where
  | mk {a b c d : Char} {k l m n : Nat} (ha : IsHexadecimal a k) (hb : IsHexadecimal b l)
      (hc : IsHexadecimal c m) (hd : IsHexadecimal d n) :
      SpellsUnit ['\\', 'u', a, b, c, d] (((k * 16 + l) * 16 + m) * 16 + n)

/-- The inside of a string literal and the characters that it spells. -/
inductive SpellsCharacters : List Char → List Char → Prop where
  | nil : SpellsCharacters [] []
  | plain {c : Char} {text spelled : List Char} (hc : ' ' ≤ c) (hq : c ≠ '"') (hb : c ≠ '\\')
      (h : SpellsCharacters text spelled) : SpellsCharacters (c :: text) (c :: spelled)
  | letter {c e : Char} {text spelled : List Char} (he : (c, e) ∈ letterEscapes)
      (h : SpellsCharacters text spelled) : SpellsCharacters ('\\' :: c :: text) (e :: spelled)
  | unit {u text spelled : List Char} {n : Nat} (hu : SpellsUnit u n)
      (hn : n < 0xD800 ∨ 0xE000 ≤ n) (h : SpellsCharacters text spelled) :
      SpellsCharacters (u ++ text) (Char.ofNat n :: spelled)
  | pair {u v text spelled : List Char} {high low : Nat} (hu : SpellsUnit u high)
      (hhigh : 0xD800 ≤ high ∧ high < 0xDC00) (hv : SpellsUnit v low)
      (hlow : 0xDC00 ≤ low ∧ low < 0xE000) (h : SpellsCharacters text spelled) :
      SpellsCharacters (u ++ v ++ text)
        (Char.ofNat (0x10000 + (high - 0xD800) * 0x400 + (low - 0xDC00)) :: spelled)

theorem spellsCharacters_plain {text : List Char}
    (h : ∀ c ∈ text, ' ' ≤ c ∧ c ≠ '"' ∧ c ≠ '\\') : SpellsCharacters text text := by
  induction text with
  | nil => exact .nil
  | cons c text ih =>
    rw [List.forall_mem_cons] at h
    obtain ⟨⟨hc, hq, hb⟩, htext⟩ := h
    exact .plain hc hq hb (ih htext)

/-- What a text spells. An object keeps its members in order, also where a name comes twice. -/
inductive Tree where
  | null
  | boolean (value : Bool)
  | number (numeral : Numeral)
  | string (text : String)
  | array (elements : List Tree)
  | object (members : List (String × Tree))

/-- A part of a text: a value, a member, or what stands inside brackets. The further elements or
members of an array or object are the ones that come behind a comma. -/
inductive Fragment where
  | value (t : Tree)
  | member (name : String) (t : Tree)
  | elements (ts : List Tree)
  | furtherElements (ts : List Tree)
  | members (ms : List (String × Tree))
  | furtherMembers (ms : List (String × Tree))

def blanks : List Char := [' ', '\t', '\n', '\r']

inductive Spells : List Char → Fragment → Prop where
  | null : Spells ['n', 'u', 'l', 'l'] (.value .null)
  | true : Spells ['t', 'r', 'u', 'e'] (.value (.boolean true))
  | false : Spells ['f', 'a', 'l', 's', 'e'] (.value (.boolean false))
  | number (n : Numeral) : Spells n.text (.value (.number n))
  | string {text spelled : List Char} (h : SpellsCharacters text spelled) :
      Spells ('"' :: text ++ ['"']) (.value (.string (String.ofList spelled)))
  | array {text : List Char} {ts : List Tree} (h : Spells text (.elements ts)) :
      Spells ('[' :: text ++ [']']) (.value (.array ts))
  | object {text : List Char} {ms : List (String × Tree)} (h : Spells text (.members ms)) :
      Spells ('{' :: text ++ ['}']) (.value (.object ms))
  | blankBefore {c : Char} {text : List Char} {t : Tree} (hc : c ∈ blanks)
      (h : Spells text (.value t)) : Spells (c :: text) (.value t)
  | blankAfter {c : Char} {text : List Char} {t : Tree} (hc : c ∈ blanks)
      (h : Spells text (.value t)) : Spells (text ++ [c]) (.value t)
  | member {key text : List Char} {name : String} {t : Tree}
      (hkey : Spells key (.value (.string name))) (h : Spells text (.value t)) :
      Spells (key ++ ':' :: text) (.member name t)
  | noElements {text : List Char} (h : ∀ c ∈ text, c ∈ blanks) : Spells text (.elements [])
  | elements {text more : List Char} {t : Tree} {ts : List Tree} (h : Spells text (.value t))
      (hmore : Spells more (.furtherElements ts)) : Spells (text ++ more) (.elements (t :: ts))
  | noFurtherElements : Spells [] (.furtherElements [])
  | furtherElements {text more : List Char} {t : Tree} {ts : List Tree}
      (h : Spells text (.value t)) (hmore : Spells more (.furtherElements ts)) :
      Spells (',' :: text ++ more) (.furtherElements (t :: ts))
  | noMembers {text : List Char} (h : ∀ c ∈ text, c ∈ blanks) : Spells text (.members [])
  | members {text more : List Char} {name : String} {t : Tree} {ms : List (String × Tree)}
      (h : Spells text (.member name t)) (hmore : Spells more (.furtherMembers ms)) :
      Spells (text ++ more) (.members ((name, t) :: ms))
  | noFurtherMembers : Spells [] (.furtherMembers [])
  | furtherMembers {text more : List Char} {name : String} {t : Tree} {ms : List (String × Tree)}
      (h : Spells text (.member name t)) (hmore : Spells more (.furtherMembers ms)) :
      Spells (',' :: text ++ more) (.furtherMembers ((name, t) :: ms))

/-! ### Their lexemes -/

mutual

def Tree.lexemes : Tree → List Lexeme
  | .null | .boolean _ => [.literal]
  | .number n => [.number n.text]
  | .string s => [.string (some s)]
  | .array [] => [.beginArray, .endArray]
  | .array (t :: ts) => .beginArray :: t.lexemes ++ furtherElementLexemes ts ++ [.endArray]
  | .object [] => [.beginObject, .endObject]
  | .object ((name, t) :: ms) =>
    .beginObject :: .string (some name) :: .colon :: t.lexemes ++ furtherMemberLexemes ms ++
      [.endObject]

def furtherElementLexemes : List Tree → List Lexeme
  | [] => []
  | t :: ts => .comma :: t.lexemes ++ furtherElementLexemes ts

def furtherMemberLexemes : List (String × Tree) → List Lexeme
  | [] => []
  | (name, t) :: ms =>
    .comma :: .string (some name) :: .colon :: t.lexemes ++ furtherMemberLexemes ms

end

def Fragment.lexemes : Fragment → List Lexeme
  | value t => t.lexemes
  | member name t => .string (some name) :: .colon :: t.lexemes
  | elements [] => []
  | elements (t :: ts) => t.lexemes ++ furtherElementLexemes ts
  | furtherElements ts => furtherElementLexemes ts
  | members [] => []
  | members ((name, t) :: ms) =>
    .string (some name) :: .colon :: t.lexemes ++ furtherMemberLexemes ms
  | furtherMembers ms => furtherMemberLexemes ms

/-- The lexeme that a value starts with. -/
def Tree.first : Tree → Lexeme
  | null | boolean _ => .literal
  | number n => .number n.text
  | string s => .string (some s)
  | array _ => .beginArray
  | object _ => .beginObject

theorem Tree.exists_lexemes_eq (t : Tree) : ∃ ls, t.lexemes = t.first :: ls := by
  match t with
  | .null | .boolean _ | .number _ | .string _ | .array [] | .array (_ :: _) | .object [] |
    .object ((_, _) :: _) => exact ⟨_, rfl⟩

theorem lexemes_array (ts : List Tree) :
    (Tree.array ts).lexemes = .beginArray :: (Fragment.elements ts).lexemes ++ [.endArray] := by
  cases ts <;> simp [Tree.lexemes, Fragment.lexemes]

theorem lexemes_object (ms : List (String × Tree)) :
    (Tree.object ms).lexemes = .beginObject :: (Fragment.members ms).lexemes ++ [.endObject] := by
  rcases ms with - | ⟨⟨name, t⟩, ms⟩ <;> simp [Tree.lexemes, Fragment.lexemes]

end PhraseArithmetic.Json
