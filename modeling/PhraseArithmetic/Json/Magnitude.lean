import PhraseArithmetic.Text.Double
import PhraseArithmetic.Text.Numeral

/-!
# Numerals within double range

A numeral is in range when its value, computed in double precision as the rounded product of a
64-bit significand and a power of ten, is finite. Digits past the significand move the exponent
before the point and are dropped after it. All of this is decided in whole numbers.
-/
namespace PhraseArithmetic.Json

/-- The parts of a numeral's text: digits before the point, digits after it, and the exponent. -/
structure Parts where
  whole : List Char
  fraction : List Char
  exponent : Int

def Parts.ofText (text : List Char) : Parts :=
  let unsigned := text.dropWhile (· == '-')
  let whole := unsigned.takeWhile Char.isDigit
  let afterWhole := unsigned.dropWhile Char.isDigit
  let (fraction, afterFraction) := match afterWhole with
    | '.' :: rest => rest.span Char.isDigit
    | rest => ([], rest)
  let exponent := match afterFraction with
    | _ :: rest => (Text.integer? rest).getD 0
    | [] => 0
  ⟨whole, fraction, exponent⟩

/-- Takes digits in front of `significand` while it stays below 2^64; gives also the digits left. -/
def takeFitting (significand : Nat) : List Char → Nat × List Char
  | [] => (significand, [])
  | d :: rest =>
    let next := significand * 10 + (d.toNat - '0'.toNat)
    if next < UInt64.size then takeFitting next rest else (significand, d :: rest)

/-- The significand and the power of ten that it is scaled by. -/
def Parts.scaled (p : Parts) : Nat × Int :=
  let (whole, dropped) := takeFitting 0 p.whole
  let (significand, unread) := takeFitting whole p.fraction
  (significand, p.exponent + dropped.length - (p.fraction.length - unread.length : Nat))

/-- To fifty-three significant bits, a half to the even neighbour. -/
def roundToDouble (n : Nat) : Nat :=
  let shift := n.log2 + 1 - 53
  let step := Nat.pow 2 shift
  let quotient := n / step
  let twice := 2 * (n % step)
  if twice > step ∨ (twice = step ∧ quotient % 2 = 1) then (quotient + 1) * step
  else quotient * step

def inDoubleRange (text : List Char) : Bool :=
  let (significand, power) := (Parts.ofText text).scaled
  significand = 0 || power < 0 ||
    (power ≤ 308 &&
      roundToDouble significand * roundToDouble (Nat.pow 10 power.toNat) < Text.infinityBound)

end PhraseArithmetic.Json
