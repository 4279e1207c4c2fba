import PhraseArithmetic.Text.Double
import PhraseArithmetic.Text.Hexadecimal
import PhraseArithmetic.Text.Numeral
import PhraseArithmetic.Toml.Layout

/-!
# Integers and floats

Single underscores may stand between digits. An integer must fit 64 bits with its sign, and a
float must not overflow to positive infinity. Only the fact that a float was read is kept.
-/
namespace PhraseArithmetic.Toml

inductive Number where
  | integer (value : Int)
  | float
  deriving DecidableEq, Repr

def readMoreDigits (isDigit : Char → Bool) (reversed : List Char) : Reader (List Char)
  | [] => some (reversed.reverse, [])
  | '_' :: c :: rest => if isDigit c then readMoreDigits isDigit (c :: reversed) rest else none
  | c :: rest =>
    if isDigit c then readMoreDigits isDigit (c :: reversed) rest
    else if c = '_' then none
    else some (reversed.reverse, c :: rest)

/-- One or more digits, given without their underscores. -/
def readDigits (isDigit : Char → Bool) : Reader (List Char)
  | c :: rest => if isDigit c then readMoreDigits isDigit [c] rest else none
  | [] => none

/-- Whole decimal digits; a leading zero stands alone. -/
def readWhole : Reader (List Char)
  | '0' :: rest => some (['0'], rest)
  | text => readDigits Char.isDigit text

def splitSign : List Char → Bool × List Char
  | '+' :: rest => (false, rest)
  | '-' :: rest => (true, rest)
  | text => (false, text)

def valueInBase (base : Nat) (digits : List Char) : Nat :=
  digits.foldl (fun n c => n * base + (Text.hexValue? c).getD 0) 0

def isDigitBelow (base : Nat) (c : Char) : Bool := (Text.hexValue? c).any (· < base)

def integer? (value : Int) : Option Number :=
  if Int64.minValue.toInt ≤ value ∧ value ≤ Int64.maxValue.toInt then some (.integer value)
  else none

/-- The digits after the mark of a base. -/
def readBased (base : Nat) (text : List Char) : Option (Number × List Char) := do
  let (digits, rest) ← readDigits (isDigitBelow base) text
  let n ← integer? (valueInBase base digits)
  some (n, rest)

/-- Whether digits scaled by a power of ten round to infinity. -/
def overflows (digits : List Char) (power : Int) : Bool :=
  let significant := digits.dropWhile (· = '0')
  let n := Nat.ofDigitChars 10 significant 0
  let magnitude := significant.length + power
  !significant.isEmpty &&
    (309 < magnitude ||
      (magnitude = 309 &&
        if power < 0 then Text.infinityBound * Nat.pow 10 power.natAbs ≤ n
        else Text.infinityBound ≤ n * Nat.pow 10 power.natAbs))

def readExponent (text : List Char) : Option (Int × List Char) := do
  let (negative, rest) := splitSign text
  let (digits, rest) ← readDigits Char.isDigit rest
  let n : Int := Nat.ofDigitChars 10 digits 0
  some (if negative then -n else n, rest)

def float? (negative : Bool) (digits : List Char) (power : Int) : Option Number :=
  if !negative && overflows digits power then none else some .float

def isExponentMark (c : Char) : Bool := c = 'e' || c = 'E'

/-- A number in base ten after its sign. -/
def readDecimal (negative : Bool) (text : List Char) : Option (Number × List Char) := do
  let (whole, rest) ← readWhole text
  match rest with
  | '.' :: rest =>
    let (fraction, rest) ← readDigits Char.isDigit rest
    let (power, rest) ← match rest with
      | c :: after => if isExponentMark c then readExponent after else some (0, c :: after)
      | [] => some (0, [])
    let n ← float? negative (whole ++ fraction) (power - fraction.length)
    some (n, rest)
  | c :: after =>
    if isExponentMark c then
      let (power, rest) ← readExponent after
      let n ← float? negative whole power
      some (n, rest)
    else
      let n : Int := Nat.ofDigitChars 10 whole 0
      let n ← integer? (if negative then -n else n)
      some (n, rest)
  | [] =>
    let n : Int := Nat.ofDigitChars 10 whole 0
    let n ← integer? (if negative then -n else n)
    some (n, [])

def readNumber : Reader Number
  | '0' :: 'x' :: rest => readBased 16 rest
  | '0' :: 'o' :: rest => readBased 8 rest
  | '0' :: 'b' :: rest => readBased 2 rest
  | text =>
    match splitSign text with
    | (_, 'i' :: 'n' :: 'f' :: rest) | (_, 'n' :: 'a' :: 'n' :: rest) => some (.float, rest)
    | (negative, rest) => readDecimal negative rest

end PhraseArithmetic.Toml
