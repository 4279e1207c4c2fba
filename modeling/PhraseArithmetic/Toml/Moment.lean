import PhraseArithmetic.Toml.Layout

/-!
# Dates and times

A moment is a date, a time, or both, and a date with a time may have an offset. It is checked
against the calendar and the clock; only the fact that one was read is kept.
-/
namespace PhraseArithmetic.Toml

def digit? (c : Char) : Option Nat := if c.isDigit then some (c.toNat - '0'.toNat) else none

/-- Two digits whose value lies between the bounds. -/
def readTwoDigits (least most : Nat) : Reader Nat
  | a :: b :: rest => do
    let n := 10 * (← digit? a) + (← digit? b)
    if least ≤ n ∧ n ≤ most then some (n, rest) else none
  | _ => none

def readYear : Reader Nat
  | a :: b :: c :: d :: rest => do
    some (1000 * (← digit? a) + 100 * (← digit? b) + 10 * (← digit? c) + (← digit? d), rest)
  | _ => none

/-- The text after a given character. -/
def after? (expected : Char) : List Char → Option (List Char)
  | c :: rest => if c = expected then some rest else none
  | [] => none

def isLeapYear (year : Nat) : Bool := year % 4 = 0 && (year % 100 ≠ 0 || year % 400 = 0)

def daysInMonth (year month : Nat) : Nat :=
  if month = 2 then if isLeapYear year then 29 else 28
  else if [4, 6, 9, 11].contains month then 30
  else 31

/-- The text after a date. -/
def afterDate? (text : List Char) : Option (List Char) := do
  let (year, rest) ← readYear text
  let (month, rest) ← readTwoDigits 1 12 (← after? '-' rest)
  let (_, rest) ← readTwoDigits 1 (daysInMonth year month) (← after? '-' rest)
  some rest

/-- Skips a point and the digits after it; a point without digits is left. -/
def skipFraction : List Char → List Char
  | '.' :: c :: rest => if c.isDigit then rest.dropWhile Char.isDigit else '.' :: c :: rest
  | text => text

/-- The text after an hour and a minute. -/
def afterMinute? (text : List Char) : Option (List Char) := do
  let (_, rest) ← readTwoDigits 0 23 text
  let (_, rest) ← readTwoDigits 0 59 (← after? ':' rest)
  some rest

/-- The text after a time; a minute may have a leap second. -/
def afterTime? (text : List Char) : Option (List Char) := do
  let rest ← afterMinute? text
  let (_, rest) ← readTwoDigits 0 60 (← after? ':' rest)
  some (skipFraction rest)

def skipOffset (text : List Char) : List Char :=
  match text with
  | 'Z' :: rest | 'z' :: rest => rest
  | '+' :: rest | '-' :: rest => (afterMinute? rest).getD text
  | _ => text

/-- Skips a time that follows a date, with its offset. -/
def skipTimeOfDay (text : List Char) : List Char :=
  match text with
  | 'T' :: rest | 't' :: rest | ' ' :: rest => ((afterTime? rest).map skipOffset).getD text
  | _ => text

/-- The text after a moment. -/
def afterMoment? (text : List Char) : Option (List Char) :=
  match afterDate? text with
  | some rest => some (skipTimeOfDay rest)
  | none => afterTime? text

end PhraseArithmetic.Toml
