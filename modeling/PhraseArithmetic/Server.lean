import PhraseArithmetic.Http.Message
import PhraseArithmetic.Service
import PhraseArithmetic.Wire.Message

/-!
# Answering requests

A request passes a fixed chain of checks: its declared length, its path, its method, its content
type, the length of its body and the shape of its body. The first check that fails gives the
response. Only a request that passes all of them asks the service, and only that can change the
ledger.
-/
namespace PhraseArithmetic

def version : String := "0.1.0"

/-- What an endpoint does. -/
inductive Action where
  | ask (inquiry : Inquiry)
  | listFailures
  | reportHealth
  deriving DecidableEq, Repr

namespace Endpoint

def action : Endpoint → Action
  | extractNumber => .ask .value
  | validateExpression => .ask .validity
  | errorFrequencies => .listFailures
  | health => .reportHealth

/-- The methods that an endpoint serves, as the `allow` header lists them. -/
def allowed (e : Endpoint) : List String :=
  match e.action with
  | .ask _ => ["POST"]
  | .listFailures | .reportHealth => ["GET", "HEAD"]

def serves (e : Endpoint) (method : String) : Bool := e.allowed.contains method

def allowHeader (e : Endpoint) : String := ",".intercalate e.allowed

end Endpoint

/-- Why a body was not taken. -/
inductive Rejection where
  | contentType
  | length
  | defect (defect : Wire.Defect)
  deriving DecidableEq, Repr

namespace Rejection

def status : Rejection → Nat
  | length => 413
  | contentType | defect _ => 400

/-- The fixed text of a refusal. The decoder's own words about a body, which follow it, are left
out. -/
def text : Rejection → String
  | contentType => "Expected request with `Content-Type: application/json`"
  | length => "Failed to buffer the request body: length limit exceeded"
  | defect .malformed => "Failed to parse the request body as JSON"
  | defect .mismatch => "Failed to deserialize the JSON body into the target type"

def response (r : Rejection) : Http.Response := .plain r.status r.text

def event (r : Rejection) : Log.Event := ⟨.warn, s!"  Rejected request body: {r.text}"⟩

end Rejection

/-- A response, what was logged on the way to it and the ledger after it. -/
structure Exchange where
  response : Http.Response
  log : List Log.Event
  ledger : Ledger

/-- A request and the uptime in seconds at which it is answered. -/
structure Arrival where
  request : Http.Request
  uptime : UInt64

namespace Server

/-- No body longer than this is buffered, whatever the configured limit. -/
def bufferLimit : Nat := 2 * 1024 * 1024

/-- The longest body that is read under a configured limit. -/
def bodyLimit (limit : Nat) (r : Http.Request) : Nat :=
  min bufferLimit (min limit (r.contentLength?.getD limit))

def declaresTooMuch (limit : Nat) (r : Http.Request) : Bool :=
  r.contentLength?.any (limit < ·)

/-- The expression that a request carries, or the first reason not to take it. -/
def expression (limit : Nat) (r : Http.Request) : Except Rejection String :=
  if !r.hasJsonContent then .error .contentType
  else if bodyLimit limit r < r.body.size then .error .length
  else match Wire.requestFormat.decodeFirst (Text.octetSymbols r.body) with
    | .ok request => .ok request.expression
    | .error defect => .error (.defect defect)

def successEvent (phrase : String) : Answer → Log.Event
  | .number n => ⟨.info, s!"  Evaluated '{phrase}' = {Text.decimal n.toInt}"⟩
  | .valid => ⟨.info, s!"  Validated '{phrase}'"⟩

def failureEvent (f : Failure) : Log.Event :=
  let count := Text.decimal f.frequency.toNat
  ⟨.warn, s!"  {f.endpoint} failed: {f.kind} (seen {count} times) for '{f.expression}'"⟩

/-- Asks the service about an accepted expression. -/
def inquire (q : Inquiry) (phrase : String) (l : Ledger) : Exchange :=
  let reply := q.ask phrase l
  match reply.result with
  | .ok answer =>
    ⟨.json 200 (Wire.responseFormat.encode ⟨answer.text⟩),
      reply.log ++ [successEvent phrase answer], reply.ledger⟩
  | .error failure =>
    ⟨.json 400 (Wire.recordFormat.encode failure.toRecord),
      reply.log ++ [failureEvent failure], reply.ledger⟩

def health (uptime : UInt64) (l : Ledger) : Wire.Health :=
  ⟨"healthy", version, uptime, UInt64.ofNat l.len, l.total⟩

/-- What a served endpoint answers. -/
def serve (limit : Nat) (uptime : UInt64) (e : Endpoint) (r : Http.Request) (l : Ledger) :
    Exchange :=
  match e.action with
  | .ask q =>
    match expression limit r with
    | .ok phrase => inquire q phrase l
    | .error rejection => ⟨rejection.response, [rejection.event], l⟩
  | .listFailures => ⟨.json 200 (Wire.recordFormat.encodeList l.snapshot), [], l⟩
  | .reportHealth => ⟨.json 200 (Wire.healthFormat.encode (health uptime l)), [], l⟩

/-- A response to `HEAD` has the headers of the response to `GET` and no body. -/
def dropBody (r : Http.Request) (x : Exchange) : Exchange :=
  if r.method = "HEAD" then { x with response := { x.response with body := "" } } else x

def refuseLength (l : Ledger) : Exchange := ⟨.plain 413 "length limit exceeded", [], l⟩

/-- A declared body that is too long is refused on every path. The refusal has an `allow` header
where the method is not served, and no body for `HEAD` where that is served. -/
def respond (limit : Nat) (uptime : UInt64) (r : Http.Request) (l : Ledger) : Exchange :=
  let limited (x : Exchange) := if declaresTooMuch limit r then refuseLength l else x
  match Endpoint.ofPath? r.path with
  | none => limited ⟨.empty 404, [], l⟩
  | some e =>
    if e.serves r.method then dropBody r (limited (serve limit uptime e r l))
    else
      let x := limited ⟨.empty 405, [], l⟩
      { x with response := { x.response with allow := some e.allowHeader } }

/-- The exchanges of a sequence of requests, each seeing the ledger that the ones before left. -/
def exchanges (limit : Nat) (l : Ledger) : List Arrival → List Exchange
  | [] => []
  | a :: rest =>
    let x := respond limit a.uptime a.request l
    x :: exchanges limit x.ledger rest

/-- The exchanges of requests that are all answered at one uptime. -/
def respondAll (limit : Nat) (uptime : UInt64) (l : Ledger) (requests : List Http.Request) :
    List Exchange :=
  exchanges limit l (requests.map fun r => ⟨r, uptime⟩)

end Server
end PhraseArithmetic
