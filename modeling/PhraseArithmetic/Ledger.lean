import PhraseArithmetic.Fault
import PhraseArithmetic.Log
import PhraseArithmetic.Text.Octets

/-!
# The ledger of failures

For each kind of failure, how often it has occurred and where it occurred last. Kinds are kept in
the order of their first occurrence; a snapshot lists them by the octets of their names.
-/
namespace PhraseArithmetic

structure Record where
  expression : String
  endpoint : String
  frequency : UInt64
  kind : String
  deriving DecidableEq, Repr

/-- One failure to be counted. -/
structure Occurrence where
  kind : String
  endpoint : String
  expression : String
  deriving DecidableEq, Repr

/-- A failure of an expression with its count so far, itself included. -/
structure Failure where
  fault : Fault
  expression : String
  endpoint : String
  frequency : UInt64
  deriving DecidableEq, Repr

namespace Failure

def kind (f : Failure) : String := f.fault.kind

def toRecord (f : Failure) : Record := ⟨f.expression, f.endpoint, f.frequency, f.kind⟩

end Failure

structure Ledger where
  records : List Record
  deriving DecidableEq, Repr

namespace Ledger

def empty : Ledger := ⟨[]⟩

def get? (l : Ledger) (kind : String) : Option Record := l.records.find? (·.kind == kind)

def len (l : Ledger) : Nat := l.records.length

def isEmpty (l : Ledger) : Bool := l.records.isEmpty

def total (l : Ledger) : UInt64 := (l.records.map Record.frequency).foldr (· + ·) 0

def snapshot (l : Ledger) : List Record :=
  l.records.mergeSort fun a b => decide (Text.octets a.kind ≤ Text.octets b.kind)

/-- The record of a kind after one more occurrence. -/
def recount (l : Ledger) (o : Occurrence) : Record where
  expression := o.expression
  endpoint := o.endpoint
  frequency := match l.get? o.kind with
    | some r => r.frequency + 1
    | none => 1
  kind := o.kind

/-- Replaces the record of the same kind in its place, or adds it at the end. -/
def put (r : Record) : List Record → List Record
  | [] => [r]
  | s :: rest => if s.kind = r.kind then r :: rest else s :: put r rest

def increment (l : Ledger) (o : Occurrence) : Ledger := ⟨put (l.recount o) l.records⟩

/-- What the log says when an occurrence is counted. -/
def announcement (l : Ledger) (o : Occurrence) : List Log.Event :=
  if (l.get? o.kind).isNone then
    [⟨.debug, s!"First occurrence of error kind '{o.kind}' on {o.endpoint}"⟩]
  else []

/-- The failure that counting a fault gives. -/
def failure (l : Ledger) (fault : Fault) (endpoint expression : String) : Failure :=
  let r := l.recount ⟨fault.kind, endpoint, expression⟩
  ⟨fault, r.expression, r.endpoint, r.frequency⟩

@[simp] theorem toRecord_failure (l : Ledger) (fault : Fault) (endpoint expression : String) :
    (l.failure fault endpoint expression).toRecord =
      l.recount ⟨fault.kind, endpoint, expression⟩ := rfl

theorem frequency_recount_of_none {l : Ledger} {o : Occurrence} (h : l.get? o.kind = none) :
    (l.recount o).frequency = 1 := by
  simp [recount, h]

theorem frequency_recount_of_some {l : Ledger} {o : Occurrence} {r : Record}
    (h : l.get? o.kind = some r) : (l.recount o).frequency = r.frequency + 1 := by
  simp [recount, h]

theorem find?_put_self (r : Record) (rs : List Record) :
    (put r rs).find? (·.kind == r.kind) = some r := by
  induction rs with
  | nil => simp [put]
  | cons s rs ih => by_cases h : s.kind = r.kind <;> simp [put, h, ih]

theorem find?_put_of_ne {r : Record} {kind : String} (h : r.kind ≠ kind) (rs : List Record) :
    (put r rs).find? (·.kind == kind) = rs.find? (·.kind == kind) := by
  induction rs with
  | nil => simp [put, h]
  | cons s rs ih =>
    by_cases hs : s.kind = r.kind
    · simp [put, hs, h]
    · simp only [put, if_neg hs, List.find?_cons, ih]

@[simp] theorem get?_increment_self (l : Ledger) (o : Occurrence) :
    (l.increment o).get? o.kind = some (l.recount o) :=
  find?_put_self (l.recount o) l.records

theorem get?_increment_of_ne (l : Ledger) {o : Occurrence} {kind : String} (h : o.kind ≠ kind) :
    (l.increment o).get? kind = l.get? kind :=
  find?_put_of_ne h l.records

end Ledger
end PhraseArithmetic
