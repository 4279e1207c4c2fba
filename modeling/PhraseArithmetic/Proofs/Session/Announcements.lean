import PhraseArithmetic.Proofs.Ledger.Announcing
import PhraseArithmetic.Proofs.Session.Isolation
import PhraseArithmetic.Proofs.Session.Reproducible

/-!
# Announcements in a session

A step of a session writes to the log only when it counts an occurrence of a kind that its ledger
does not hold yet. What is written through all services on a ledger is one line for each kind that
the ledger holds in the end.
-/
namespace PhraseArithmetic

/-- An operation counts one occurrence, or it gives back no record, writes nothing and leaves the
ledger. -/
theorem Operation.observe_cases (op : Operation) (l : Ledger) :
    (op.apply l = l ∧ (op.observe l).result.record? = none ∧ (op.observe l).log = []) ∨
    ∃ o, op.apply l = l.increment o ∧ (op.observe l).result.record? = some (l.recount o) ∧
      (op.observe l).log = l.announcement o := by
  cases op with
  | ask q phrase =>
    cases hj : q.judge phrase with
    | ok a =>
      rw [apply, observe, Inquiry.ask_of_ok hj]
      exact .inl ⟨rfl, rfl, rfl⟩
    | error fault =>
      rw [apply, observe, Inquiry.ask_of_error hj]
      exact .inr ⟨q.occurrence fault phrase, rfl, rfl, rfl⟩
  | increment o => exact .inr ⟨o, rfl, rfl, rfl⟩
  | record fault endpoint expression =>
    exact .inr ⟨⟨fault.kind, endpoint, expression⟩, rfl, rfl, rfl⟩
  | get kind => exact .inl ⟨rfl, rfl, rfl⟩
  | snapshot => exact .inl ⟨rfl, rfl, rfl⟩
  | counts => exact .inl ⟨rfl, rfl, rfl⟩

/-- The records that have been given back, the earliest first. -/
def recordsOf (observations : List Observation) : List Record :=
  observations.filterMap fun observation => observation.result.record?

def linesOf (observations : List Observation) : List Log.Event :=
  observations.flatMap Observation.log

namespace Ledger

theorem Announced.trace {l : Ledger} {history : List Record} {lines : List Log.Event}
    (h : Announced l history lines) (ops : List Operation) :
    Announced (l.after ops) (history ++ recordsOf (l.trace ops))
      (lines ++ linesOf (l.trace ops)) := by
  induction ops generalizing l history lines with
  | nil => simpa [Ledger.trace, recordsOf, linesOf] using h
  | cons op ops ih =>
    rcases op.observe_cases l with ⟨happly, hrecord, hlog⟩ | ⟨o, happly, hrecord, hlog⟩
    · simpa [Ledger.trace, recordsOf, linesOf, happly, hrecord, hlog] using ih h
    · simpa [Ledger.trace, recordsOf, linesOf, happly, hrecord, hlog] using ih (h.increment o)

/-- At most `n` occurrences made the ledger. -/
def MadeIn (n : ℕ) (l : Ledger) : Prop := ∃ history, l.Reflects history ∧ history.length ≤ n

theorem MadeIn.apply {l : Ledger} {n : ℕ} (h : l.MadeIn n) (op : Operation) :
    (op.apply l).MadeIn (n + 1) := by
  obtain ⟨history, hreflects, hlength⟩ := h
  rcases op.observe_cases l with ⟨happly, -⟩ | ⟨o, happly, -⟩
  · rw [happly]
    exact ⟨history, hreflects, by omega⟩
  · rw [happly]
    exact ⟨history ++ [l.recount o], hreflects.increment o, by simpa using hlength⟩

end Ledger

namespace Session

section
variable {founders : List ℕ} {s next : Session} {step : Step} {observation : Observation}
  {steps : List Step} {observations : List Observation} {g n : ℕ} {l : Ledger}

theorem Holds.exists_after {all : List ℕ} (hl : Holds founders g s l) (hg : Grouping founders s)
    (hall : foundersFrom founders steps = all) (h : s.run steps = some observations) :
    ∃ s', s.after steps = some s' ∧
      Holds all g s' (l.after (steps.filterMap (Step.operationIn? all g))) := by
  induction steps generalizing founders s l observations with
  | nil =>
    subst hall
    exact ⟨s, rfl, hl⟩
  | cons step rest ih =>
    obtain ⟨next, observation, later, hstep, hlater, rfl⟩ := exists_of_run_cons h
    have hop : step.operationIn? all g = step.operationIn? founders g :=
      hall ▸ hg.operationIn?_eq hstep g (step :: rest)
    rw [after_cons_of_step hstep]
    cases ho : step.operationIn? founders g with
    | none =>
      have hrest := ih (hl.step_of_none hg hstep ho) (hg.of_step hstep) hall hlater
      simpa [hop, ho] using hrest
    | some op =>
      obtain ⟨-, hnext⟩ := hl.step_of_some hg hstep ho
      have hrest := ih hnext (hg.of_step hstep) hall hlater
      simpa [hop, ho] using hrest

/-- A ledger comes with the service that founds its group. -/
theorem mem_services_of_step (hs : ∀ place < s.ledgers.length, place ∈ s.services)
    (h : s.step step = some (next, observation)) :
    ∀ place < next.ledgers.length, place ∈ next.services := by
  intro place hplace
  cases step with
  | create =>
    rw [eq_of_create h] at hplace ⊢
    rcases Nat.lt_succ_iff_lt_or_eq.1 (by simpa using hplace) with hlt | rfl
    · exact List.mem_append_left _ (hs place hlt)
    · simp
  | clone source | share source =>
    obtain ⟨source, -, rfl⟩ := exists_place_of_addService h
    exact List.mem_append_left _ (hs place hplace)
  | operate service op =>
    obtain ⟨_, _, -, -, rfl, -⟩ := exists_ledger_of_operate h
    exact hs place (by simpa using hplace)

theorem mem_services_of_after {s' : Session} (hs : ∀ place < s.ledgers.length, place ∈ s.services)
    (h : s.after steps = some s') : ∀ place < s'.ledgers.length, place ∈ s'.services := by
  induction steps generalizing s with
  | nil =>
    obtain rfl := Option.some.inj h
    exact hs
  | cons step steps ih =>
    simp only [after, Option.bind_eq_bind, Option.bind_eq_some_iff] at h
    obtain ⟨⟨next, observation⟩, hstep, h⟩ := h
    exact ih (mem_services_of_step hs hstep) h

theorem madeIn_of_step (hs : ∀ l ∈ s.ledgers, l.MadeIn n)
    (h : s.step step = some (next, observation)) : ∀ l ∈ next.ledgers, l.MadeIn (n + 1) := by
  intro l hl
  rcases mem_ledgers_of_step h hl with hl | rfl | ⟨service, op, rfl, l', hl', rfl⟩
  · obtain ⟨history, hreflects, hlength⟩ := hs l hl
    exact ⟨history, hreflects, by omega⟩
  · exact ⟨[], Ledger.reflects_empty, by simp⟩
  · exact (hs l' hl').apply op

/-- What a step writes to the log, with the ledger that it finds. The frequency is exact as long as
the steps until then are fewer than a word can count. -/
structure Announces (n : ℕ) (s : Session) (step : Step) (observation : Observation) : Prop where
  silent : observation.result.record? = none → observation.log = []
  counted : ∀ r, observation.result.record? = some r →
    ∃ service op place l, step = .operate service op ∧ s.services[service]? = some place ∧
      s.ledgers[place]? = some l ∧
        observation.log = (if l.get? r.kind = none then [r.announcement] else []) ∧
          (n + 1 < UInt64.size → (r.frequency = 1 ↔ l.get? r.kind = none))

theorem announces_of_step (hs : ∀ l ∈ s.ledgers, l.MadeIn n)
    (h : s.step step = some (next, observation)) : Announces n s step observation := by
  cases step with
  | create =>
    obtain rfl : ⟨.created s.services.length, []⟩ = observation :=
      congrArg Prod.snd (Option.some.inj h)
    exact ⟨fun _ => rfl, by simp [StepResult.record?]⟩
  | clone source | share source =>
    obtain ⟨place, -, h⟩ := Option.map_eq_some_iff.1 h
    obtain rfl : ⟨.created s.services.length, []⟩ = observation := congrArg Prod.snd h
    exact ⟨fun _ => rfl, by simp [StepResult.record?]⟩
  | operate service op =>
    obtain ⟨place, l, hplace, hl, -, rfl⟩ := exists_ledger_of_operate h
    rcases op.observe_cases l with ⟨-, hrecord, hlog⟩ | ⟨o, -, hrecord, hlog⟩
    · exact ⟨fun _ => hlog, by simp [hrecord]⟩
    · refine ⟨by simp [hrecord], fun r hr => ?_⟩
      obtain rfl : l.recount o = r := by simpa [hrecord] using hr
      obtain ⟨history, hreflects, hlength⟩ := hs l (List.mem_of_getElem? hl)
      refine ⟨service, op, place, l, rfl, hplace, hl, ?_, fun hn => ?_⟩
      · rw [hlog, Ledger.announcement_eq]
        simp only [Option.isNone_iff_eq_none]
        rfl
      · exact hreflects.frequency_recount_eq_one_iff (by omega) o

/-- A step of a run is taken from the session that the steps before it leave. -/
theorem exists_announces_getElem? (hs : ∀ l ∈ s.ledgers, l.MadeIn n)
    (h : s.run steps = some observations) {i : ℕ} (hi : steps[i]? = some step) :
    ∃ before observation, s.after (steps.take i) = some before ∧
      observations[i]? = some observation ∧ Announces (n + i) before step observation := by
  induction steps generalizing s n i observations with
  | nil => simp at hi
  | cons first rest ih =>
    obtain ⟨next, observation, later, hstep, hlater, rfl⟩ := exists_of_run_cons h
    cases i with
    | zero =>
      obtain rfl : first = step := by simpa using hi
      exact ⟨s, observation, rfl, rfl, announces_of_step hs hstep⟩
    | succ i =>
      obtain ⟨before, observation, hbefore, hobservation, hannounces⟩ :=
        ih (madeIn_of_step hs hstep) hlater (by simpa using hi)
      refine ⟨before, observation, ?_, by simpa using hobservation, ?_⟩
      · rw [List.take_succ_cons, after_cons_of_step hstep, hbefore]
      · rwa [Nat.add_right_comm] at hannounces

end

/-- The lines that were written through the services on a ledger are one for each kind that the
ledger holds, as its records came. -/
theorem exists_firsts_of_getElem? {steps : List Step} {observations : List Observation}
    (h : start.run steps = some observations) {s : Session} (hs : start.after steps = some s)
    {place : ℕ} {l : Ledger} (hl : s.ledgers[place]? = some l) :
    ∃ g firsts, (founders steps)[g]? = some g ∧ s.services[g]? = some place ∧
      AreFirsts (recordsOf (observedIn g steps observations)) firsts ∧
        linesOf (observedIn g steps observations) = firsts.map Record.announcement ∧
          ∀ kind, kind ∈ firsts.map Record.kind ↔ (l.get? kind).isSome = true := by
  obtain ⟨s', hs', hg⟩ := Grouping.start.exists_after h
  obtain rfl : s' = s := Option.some.inj (hs'.symm.trans hs)
  have hmem : place ∈ s'.services :=
    mem_services_of_after (by simp [start]) hs place (List.getElem?_eq_some_iff.1 hl).1
  obtain ⟨service, hservice⟩ := List.mem_iff_getElem?.1 hmem
  obtain ⟨g, hfounder, -⟩ := hg.exists_founder hservice
  obtain ⟨-, hfounded⟩ := hg.founder hfounder
  have hplace := hg.services_founder hfounder hservice
  have hstart : Holds [0] g start .empty := holds_start g
  obtain ⟨s'', hs'', hholds⟩ := hstart.exists_after .start rfl h
  obtain rfl : s'' = s' := Option.some.inj (hs''.symm.trans hs)
  obtain ⟨place', hplace', hl'⟩ := hholds.of_founded hfounded
  obtain rfl : place = place' := Option.some.inj (hplace.symm.trans hplace')
  obtain rfl := Option.some.inj (hl.symm.trans hl')
  obtain ⟨hreflects, firsts, hfirsts, hlines⟩ :=
    Ledger.announced_empty.trace (operationsIn g steps)
  rw [List.nil_append] at hreflects hfirsts hlines
  refine ⟨g, firsts, hfounded, hplace, ?_, ?_, fun kind => ?_⟩
  · rwa [observedIn_eq_trace h]
  · rwa [observedIn_eq_trace h]
  · rw [hfirsts.mem_kinds_iff]
    exact (hreflects.isSome_iff kind).symm

/-- Each step of a run writes what the ledger that it finds calls for. Over the whole run each kind
that a ledger holds is announced once, where it occurred first. -/
structure LogTold (steps : List Step) (observations : List Observation) : Prop where
  each : ∀ i step, steps[i]? = some step → ∃ before observation,
    start.after (steps.take i) = some before ∧ observations[i]? = some observation ∧
      Announces i before step observation
  exists_firsts : ∃ s, start.after steps = some s ∧ ∀ place l, s.ledgers[place]? = some l →
    ∃ g firsts, (founders steps)[g]? = some g ∧ s.services[g]? = some place ∧
      AreFirsts (recordsOf (observedIn g steps observations)) firsts ∧
        linesOf (observedIn g steps observations) = firsts.map Record.announcement ∧
          ∀ kind, kind ∈ firsts.map Record.kind ↔ (l.get? kind).isSome = true

theorem logTold {steps : List Step} {observations : List Observation}
    (h : start.run steps = some observations) : LogTold steps observations where
  each i step hi := by
    have hs : ∀ l ∈ start.ledgers, l.MadeIn 0 := by
      intro l hl
      obtain rfl : l = .empty := List.mem_singleton.1 hl
      exact ⟨[], Ledger.reflects_empty, Nat.le_refl _⟩
    simpa using exists_announces_getElem? hs h hi
  exists_firsts := by
    obtain ⟨s, hs, -⟩ := Grouping.start.exists_after h
    exact ⟨s, hs, fun _ _ hl => exists_firsts_of_getElem? h hs hl⟩

end Session
end PhraseArithmetic
