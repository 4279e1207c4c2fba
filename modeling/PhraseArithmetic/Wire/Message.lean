import PhraseArithmetic.Ledger
import PhraseArithmetic.Wire.Reading

/-!
# The messages of the service
-/
namespace PhraseArithmetic.Wire

structure ExpressionRequest where
  expression : String
  deriving DecidableEq, Repr

structure ExpressionResponse where
  response : String
  deriving DecidableEq, Repr

structure Health where
  status : String
  version : String
  uptimeSeconds : UInt64
  trackedErrorKinds : UInt64
  totalFailures : UInt64
  deriving DecidableEq, Repr

def Members.text? (ms : Members) (name : String) : Option String :=
  match ms.lookup name with
  | some (.text s) => some s
  | _ => none

def Members.count? (ms : Members) (name : String) : Option UInt64 :=
  match ms.lookup name with
  | some (.count n) => some n
  | _ => none

def requestFormat : Format ExpressionRequest where
  fields := [⟨"expression", .text⟩]
  members m := [("expression", .text m.expression)]
  ofMembers? ms := do
    let expression ← Members.text? ms "expression"
    some ⟨expression⟩

def responseFormat : Format ExpressionResponse where
  fields := [⟨"response", .text⟩]
  members m := [("response", .text m.response)]
  ofMembers? ms := do
    let response ← Members.text? ms "response"
    some ⟨response⟩

def recordFormat : Format Record where
  fields := [⟨"expression", .text⟩, ⟨"endpoint", .text⟩, ⟨"frequency", .count⟩, ⟨"type", .text⟩]
  members r :=
    [("expression", .text r.expression), ("endpoint", .text r.endpoint),
     ("frequency", .count r.frequency), ("type", .text r.kind)]
  ofMembers? ms := do
    let expression ← Members.text? ms "expression"
    let endpoint ← Members.text? ms "endpoint"
    let frequency ← Members.count? ms "frequency"
    let kind ← Members.text? ms "type"
    some ⟨expression, endpoint, frequency, kind⟩

def healthFormat : Format Health where
  fields :=
    [⟨"status", .text⟩, ⟨"version", .text⟩, ⟨"uptime_seconds", .count⟩,
     ⟨"tracked_error_kinds", .count⟩, ⟨"total_failures", .count⟩]
  members h :=
    [("status", .text h.status), ("version", .text h.version),
     ("uptime_seconds", .count h.uptimeSeconds),
     ("tracked_error_kinds", .count h.trackedErrorKinds),
     ("total_failures", .count h.totalFailures)]
  ofMembers? ms := do
    let status ← Members.text? ms "status"
    let version ← Members.text? ms "version"
    let uptimeSeconds ← Members.count? ms "uptime_seconds"
    let trackedErrorKinds ← Members.count? ms "tracked_error_kinds"
    let totalFailures ← Members.count? ms "total_failures"
    some ⟨status, version, uptimeSeconds, trackedErrorKinds, totalFailures⟩

end PhraseArithmetic.Wire
