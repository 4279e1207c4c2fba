import PhraseArithmetic.Json.Quoted
import PhraseArithmetic.Text.Numeral

/-!
# Formats of messages

A message is a fixed list of named fields, each a text or an unsigned 64-bit count. It is written
as one JSON object with its members in the order of the fields and nothing between them.
-/
namespace PhraseArithmetic.Wire

inductive Kind where
  | text
  | count
  deriving DecidableEq, Repr

structure Field where
  name : String
  kind : Kind
  deriving DecidableEq, Repr

inductive Value where
  | text (value : String)
  | count (value : UInt64)
  deriving DecidableEq, Repr

abbrev Members := List (String × Value)

/-- How the messages of a type are laid out as members and read back from them. -/
structure Format (α : Type) where
  fields : List Field
  members : α → Members
  ofMembers? : Members → Option α

def Value.encode : Value → List Char
  | text s => Json.quoted s
  | count n => Text.naturalDigits n.toNat

def encodeMember (m : String × Value) : List Char := Json.quoted m.1 ++ ':' :: m.2.encode

def encodeMembers (ms : Members) : List Char :=
  '{' :: [','].intercalate (ms.map encodeMember) ++ ['}']

namespace Format

variable {α : Type} (f : Format α)

def encodeChars (message : α) : List Char := encodeMembers (f.members message)

def encode (message : α) : String := String.ofList (f.encodeChars message)

/-- Several messages as one JSON array. -/
def encodeList (messages : List α) : String :=
  String.ofList ('[' :: [','].intercalate (messages.map f.encodeChars) ++ [']'])

end Format
end PhraseArithmetic.Wire
