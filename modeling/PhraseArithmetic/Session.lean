import PhraseArithmetic.Service

/-!
# Sessions of several services

A service is a handle on a ledger. Several services may hold one ledger, and an operation on any
of them is seen through all of them and through no other.
-/
namespace PhraseArithmetic

/-- What can be done with one ledger. -/
inductive Operation where
  | ask (inquiry : Inquiry) (phrase : String)
  | increment (occurrence : Occurrence)
  | record (fault : Fault) (endpoint expression : String)
  | get (kind : String)
  | snapshot
  | counts
  deriving DecidableEq, Repr

/-- What a step gives back. -/
inductive StepResult where
  | created (service : Nat)
  | answered (result : Except Failure Answer)
  | counted (record : Record)
  | recorded (failure : Failure)
  | found (record : Option Record)
  | listed (records : List Record)
  | counts (len : Nat) (isEmpty : Bool) (total : UInt64)

/-- A step's result and what it wrote to the log. -/
structure Observation where
  result : StepResult
  log : List Log.Event

namespace Operation

def observe (op : Operation) (l : Ledger) : Observation :=
  match op with
  | ask q phrase => let r := q.ask phrase l; ⟨.answered r.result, r.log⟩
  | increment o => ⟨.counted (l.recount o), l.announcement o⟩
  | record fault endpoint expression =>
    ⟨.recorded (l.failure fault endpoint expression),
      l.announcement ⟨fault.kind, endpoint, expression⟩⟩
  | get kind => ⟨.found (l.get? kind), []⟩
  | snapshot => ⟨.listed l.snapshot, []⟩
  | counts => ⟨.counts l.len l.isEmpty l.total, []⟩

def apply (op : Operation) (l : Ledger) : Ledger :=
  match op with
  | ask q phrase => (q.ask phrase l).ledger
  | increment o => l.increment o
  | record fault endpoint expression => l.increment ⟨fault.kind, endpoint, expression⟩
  | _ => l

end Operation

inductive Step where
  | create
  | clone (source : Nat)
  | share (source : Nat)
  | operate (service : Nat) (operation : Operation)
  deriving DecidableEq, Repr

/-- `services` gives the place of each service's ledger in `ledgers`. -/
structure Session where
  ledgers : List Ledger
  services : List Nat
  deriving DecidableEq, Repr

namespace Session

/-- One service with a ledger of its own. -/
def start : Session := ⟨[.empty], [0]⟩

/-- Adds a service on the ledger in the given place. -/
def addService (s : Session) (place : Nat) : Session × Observation :=
  (⟨s.ledgers, s.services ++ [place]⟩, ⟨.created s.services.length, []⟩)

/-- Nothing happens when a step names a service that does not exist. -/
def step (s : Session) : Step → Option (Session × Observation)
  | .create => some (addService ⟨s.ledgers ++ [.empty], s.services⟩ s.ledgers.length)
  | .clone source | .share source => s.services[source]?.map s.addService
  | .operate service op => do
    let place ← s.services[service]?
    let ledger ← s.ledgers[place]?
    some (⟨s.ledgers.set place (op.apply ledger), s.services⟩, op.observe ledger)

def run (s : Session) : List Step → Option (List Observation)
  | [] => some []
  | step :: rest => do
    let (next, observation) ← s.step step
    let observations ← next.run rest
    some (observation :: observations)

/-- The session that all steps leave, if none of them names a service that does not exist. -/
def after (s : Session) : List Step → Option Session
  | [] => some s
  | step :: rest => do
    let (next, _) ← s.step step
    next.after rest

section
variable {s next : Session} {step : Step} {observation : Observation}

theorem run_cons_of_step (h : s.step step = some (next, observation)) (rest : List Step) :
    s.run (step :: rest) = (next.run rest).map (observation :: ·) := by
  rw [run, h]
  cases hr : next.run rest <;> simp [hr]

theorem after_cons_of_step (h : s.step step = some (next, observation)) (rest : List Step) :
    s.after (step :: rest) = next.after rest := by
  rw [after, h]
  rfl

theorem exists_of_run_cons {rest : List Step} {observations : List Observation}
    (h : s.run (step :: rest) = some observations) :
    ∃ next observation later, s.step step = some (next, observation) ∧
      next.run rest = some later ∧ observations = observation :: later := by
  simp only [run, Option.bind_eq_bind, Option.bind_eq_some_iff, Option.some.injEq] at h
  obtain ⟨⟨next, observation⟩, hstep, later, hlater, rfl⟩ := h
  exact ⟨next, observation, later, hstep, hlater, rfl⟩

theorem eq_of_create (h : s.step .create = some (next, observation)) :
    next = ⟨s.ledgers ++ [.empty], s.services ++ [s.ledgers.length]⟩ :=
  (congrArg Prod.fst (Option.some.inj h)).symm

theorem exists_place_of_addService {source : Nat}
    (h : s.services[source]?.map s.addService = some (next, observation)) :
    ∃ place, s.services[source]? = some place ∧ next = ⟨s.ledgers, s.services ++ [place]⟩ := by
  obtain ⟨place, hplace, h⟩ := Option.map_eq_some_iff.1 h
  exact ⟨place, hplace, (congrArg Prod.fst h).symm⟩

theorem exists_ledger_of_operate {service : Nat} {op : Operation}
    (h : s.step (.operate service op) = some (next, observation)) :
    ∃ place l, s.services[service]? = some place ∧ s.ledgers[place]? = some l ∧
      next = ⟨s.ledgers.set place (op.apply l), s.services⟩ ∧ observation = op.observe l := by
  simp only [Session.step, Option.bind_eq_bind, Option.bind_eq_some_iff, Option.some.injEq,
    Prod.mk.injEq] at h
  obtain ⟨place, hplace, l, hl, rfl, rfl⟩ := h
  exact ⟨place, l, hplace, hl, rfl, rfl⟩

end
end Session
end PhraseArithmetic
