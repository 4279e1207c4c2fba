import PhraseArithmetic.Proofs.Ledger.Counting

/-!
# Clients that share a ledger

Several clients ask services on one ledger, each its own questions in its own order. However their
turns are interleaved, each question has the same outcome, the failures of a kind are numbered from
one on, and the counts at the end are the same. Only the context that a record keeps depends on the
order, and no more of the order than which failure of the kind came last.
-/
namespace PhraseArithmetic

structure Question where
  inquiry : Inquiry
  phrase : String
  deriving DecidableEq, Repr

/-- The answer or the kind of the fault. -/
abbrev Outcome := Except String Answer

namespace Question

def operation (q : Question) : Operation := .ask q.inquiry q.phrase

def outcome (q : Question) : Outcome := (q.inquiry.judge q.phrase).mapError Fault.kind

def failsWith (kind : String) (q : Question) : Bool := decide (q.outcome = .error kind)

/-- What the question adds to a ledger if it fails with a kind. -/
def contextOf (kind : String) (q : Question) : Occurrence :=
  ⟨kind, q.inquiry.endpoint.path, q.phrase⟩

theorem outcome_of_error {q : Question} {fault : Fault}
    (h : q.inquiry.judge q.phrase = .error fault) : q.outcome = .error fault.kind := by
  rw [outcome, h, Except.mapError]

theorem outcome_of_ok {q : Question} {a : Answer} (h : q.inquiry.judge q.phrase = .ok a) :
    q.outcome = .ok a := by
  rw [outcome, h, Except.mapError]

theorem failsWith_of_error {q : Question} {fault : Fault}
    (h : q.inquiry.judge q.phrase = .error fault) (kind : String) :
    q.failsWith kind = decide (fault.kind = kind) := by
  simp [failsWith, outcome_of_error h]

theorem failsWith_of_ok {q : Question} {a : Answer} (h : q.inquiry.judge q.phrase = .ok a)
    (kind : String) : q.failsWith kind = false := by
  simp [failsWith, outcome_of_ok h]

end Question

namespace Ledger

/-- The results of questions that are asked one after another. -/
def results (l : Ledger) : List Question → List (Except Failure Answer)
  | [] => []
  | q :: rest => (q.inquiry.ask q.phrase l).result :: (q.operation.apply l).results rest

theorem results_cons_of_ok {q : Question} {a : Answer} (h : q.inquiry.judge q.phrase = .ok a)
    (l : Ledger) (rest : List Question) : l.results (q :: rest) = .ok a :: l.results rest := by
  rw [results, Question.operation, Operation.apply, Inquiry.ask_of_ok h]

theorem results_cons_of_error {q : Question} {fault : Fault}
    (h : q.inquiry.judge q.phrase = .error fault) (l : Ledger) (rest : List Question) :
    l.results (q :: rest) =
      .error (l.failure fault q.inquiry.endpoint.path q.phrase) ::
        (l.increment (q.inquiry.occurrence fault q.phrase)).results rest := by
  rw [results, Question.operation, Operation.apply, Inquiry.ask_of_error h]

/-- The frequencies in the failures of a kind, in the order of the results. -/
def frequencies (kind : String) : List (Except Failure Answer) → List UInt64
  | [] => []
  | .ok _ :: rest => frequencies kind rest
  | .error f :: rest =>
    if f.kind = kind then f.frequency :: frequencies kind rest else frequencies kind rest

theorem Reflects.frequencies_results {l : Ledger} {history : List Record} (h : l.Reflects history)
    (kind : String) (questions : List Question) :
    frequencies kind (l.results questions) =
      (List.range' (history.countP (·.kind == kind) + 1)
        (questions.countP (·.failsWith kind))).map UInt64.ofNat := by
  induction questions generalizing l history with
  | nil => rfl
  | cons q questions ih =>
    cases hj : q.inquiry.judge q.phrase with
    | ok a =>
      rw [results_cons_of_ok hj, frequencies, ih h]
      simp [Question.failsWith_of_ok hj]
    | error fault =>
      have hstep := ih (h.increment (q.inquiry.occurrence fault q.phrase))
      have hfailure : (l.failure fault q.inquiry.endpoint.path q.phrase).frequency =
          UInt64.ofNat (history.countP (·.kind == fault.kind) + 1) :=
        h.frequency_recount (q.inquiry.occurrence fault q.phrase)
      rw [results_cons_of_error hj, frequencies, hstep]
      by_cases hk : fault.kind = kind
      · have hfails : q.failsWith kind = true := by simp [Question.failsWith_of_error hj, hk]
        rw [if_pos (by exact hk), List.countP_cons_of_pos hfails, List.range'_succ, List.map_cons,
          hfailure, hk]
        simp [recount, Inquiry.occurrence, hk]
      · rw [if_neg (by exact hk)]
        simp [recount, Inquiry.occurrence, hk, Question.failsWith_of_error hj]

/-- The numbers from one on come back from 64-bit words as long as they fit. -/
theorem map_toNat_range'_of_lt {m : ℕ} (h : m < UInt64.size) :
    ((List.range' 1 m).map UInt64.ofNat).map UInt64.toNat = List.range' 1 m := by
  rw [List.map_map]
  refine (List.map_congr_left ?_).trans (List.map_id _)
  intro i hi
  have hle : i < 1 + m := (List.mem_range'_1.1 hi).2
  exact UInt64.toNat_ofNat_of_lt' (by omega)

end Ledger

/-- A client's turn to ask. -/
abbrev Turn (n : ℕ) := Fin n × Question

/-- Each client asks its own questions in its own order. -/
def Interleaves {n : ℕ} (scripts : Fin n → List Question) (turns : List (Turn n)) : Prop :=
  ∀ c, (turns.filter fun t => t.1 = c).map Prod.snd = scripts c

def questions {n : ℕ} (turns : List (Turn n)) : List Question := turns.map Prod.snd

/-- The outcomes that one client is told, in the order of its questions. -/
def outcomesOf {n : ℕ} (c : Fin n) (turns : List (Turn n))
    (results : List (Except Failure Answer)) : List Outcome :=
  ((turns.zip results).filter fun p => p.1.1 = c).map fun p => p.2.mapError Failure.kind

/-- The number of questions that fail with a kind. -/
def failing {n : ℕ} (kind : String) (turns : List (Turn n)) : ℕ :=
  (questions turns).countP (·.failsWith kind)

def lastFailing {n : ℕ} (kind : String) (turns : List (Turn n)) : Option Question :=
  ((questions turns).filter (·.failsWith kind)).getLast?

section
variable {n : ℕ} {scripts : Fin n → List Question} {turns turns' : List (Turn n)}

theorem filter_client_eq (c : Fin n) (turns : List (Turn n)) :
    turns.filter (fun t => t.1 = c) =
      ((turns.filter fun t => t.1 = c).map Prod.snd).map (Prod.mk c) := by
  have hclient : ∀ t ∈ turns.filter (fun t => t.1 = c), (Prod.mk c ∘ Prod.snd) t = id t := by
    intro t ht
    obtain rfl : t.1 = c := of_decide_eq_true (List.mem_filter.1 ht).2
    rfl
  rw [List.map_map, List.map_congr_left hclient, List.map_id]

/-- Two interleavings of the same scripts are the same turns in another order. -/
theorem Interleaves.perm (h : Interleaves scripts turns) (h' : Interleaves scripts turns') :
    turns.Perm turns' := by
  have hcount (c : Fin n) (q : Question) (turns : List (Turn n)) :
      (turns.filter fun t => t.1 = c).count (c, q) = turns.count (c, q) :=
    List.count_filter (by simp)
  rw [List.perm_iff_count]
  rintro ⟨c, q⟩
  rw [← hcount c q turns, ← hcount c q turns', filter_client_eq c turns, filter_client_eq c turns',
    h c, h' c]

theorem outcomesOf_results (c : Fin n) (turns : List (Turn n)) (l : Ledger) :
    outcomesOf c turns (l.results (questions turns)) =
      ((turns.filter fun t => t.1 = c).map Prod.snd).map Question.outcome := by
  induction turns generalizing l with
  | nil => rfl
  | cons t turns ih =>
    have houtcome : (t.2.inquiry.ask t.2.phrase l).result.mapError Failure.kind = t.2.outcome := by
      rw [Question.outcome, ← t.2.inquiry.mapError_fault_ask t.2.phrase l]
      cases (t.2.inquiry.ask t.2.phrase l).result <;> rfl
    have hrest := ih (t.2.operation.apply l)
    unfold outcomesOf at hrest ⊢
    rw [questions, List.map_cons, Ledger.results, List.zip_cons_cons]
    by_cases ht : t.1 = c
    · rw [List.filter_cons_of_pos (by simpa using ht), List.filter_cons_of_pos (by simpa using ht),
        List.map_cons, List.map_cons, List.map_cons, houtcome, ← hrest]
      rfl
    · rw [List.filter_cons_of_neg (by simpa using ht), List.filter_cons_of_neg (by simpa using ht),
        ← hrest]
      rfl

/-- Which occurrences questions count under a kind is decided by those that fail with it. -/
theorem countedUnder_operations (kind : String) (qs : List Question) :
    Ledger.countedUnder kind (qs.map Question.operation) =
      (qs.filter (·.failsWith kind)).map (Question.contextOf kind) := by
  induction qs with
  | nil => rfl
  | cons q qs ih =>
    rw [Ledger.countedUnder, List.filterMap_map] at ih ⊢
    cases hj : q.inquiry.judge q.phrase with
    | ok a =>
      have ho : q.operation.occurrence? = none := Operation.occurrence?_ask_of_ok hj
      simpa [ho, Question.failsWith_of_ok hj] using ih
    | error fault =>
      have ho : q.operation.occurrence? = some (q.inquiry.occurrence fault q.phrase) :=
        Operation.occurrence?_ask_of_error hj
      by_cases hk : fault.kind = kind
      · simpa [ho, Question.failsWith_of_error hj, hk, Inquiry.occurrence, Question.contextOf]
          using ih
      · simpa [ho, Question.failsWith_of_error hj, hk, Inquiry.occurrence] using ih

end

namespace Session

section
variable {n : ℕ} {s : Session} {place : ℕ} {service : Fin n → ℕ} {l : Ledger}

/-- The client's service is asked. -/
def turnStep (service : Fin n → ℕ) (t : Turn n) : Step := .operate (service t.1) t.2.operation

/-- Turns that are taken through the clients' services have these results, in the order of the
turns, and leave this ledger in the place. -/
structure Runs (s : Session) (place : ℕ) (service : Fin n → ℕ) (turns : List (Turn n))
    (results : List (Except Failure Answer)) (l : Ledger) : Prop where
  run_eq : (s.run (turns.map (turnStep service))).map (List.map Observation.result) =
    some (results.map StepResult.answered)
  after_eq : (s.after (turns.map (turnStep service))).bind (fun s' => s'.ledgers[place]?) = some l

theorem step_turnStep (hl : s.ledgers[place]? = some l) (t : Turn n)
    (hservice : s.services[service t.1]? = some place) :
    s.step (turnStep service t) =
      some (⟨s.ledgers.set place (t.2.operation.apply l), s.services⟩, t.2.operation.observe l) := by
  simp [turnStep, step, hservice, hl]

/-- The services do as if all questions were put to the one ledger. -/
theorem runs_turns (hl : s.ledgers[place]? = some l)
    (hservice : ∀ c, s.services[service c]? = some place) (turns : List (Turn n)) :
    s.Runs place service turns (l.results (questions turns))
      (l.after ((questions turns).map Question.operation)) := by
  induction turns generalizing s l with
  | nil => exact ⟨rfl, by simpa [after, questions] using hl⟩
  | cons t turns ih =>
    have hstep := step_turnStep hl t (hservice t.1)
    have hplace : place < s.ledgers.length := (List.getElem?_eq_some_iff.1 hl).1
    let next : Session := ⟨s.ledgers.set place (t.2.operation.apply l), s.services⟩
    have hnext : next.ledgers[place]? = some (t.2.operation.apply l) :=
      List.getElem?_set_self hplace
    obtain ⟨hrun, hafter⟩ := ih hnext hservice
    constructor
    · rw [List.map_cons, run_cons_of_step hstep, Option.map_map]
      obtain ⟨observations, hobservations, hresults⟩ := Option.map_eq_some_iff.1 hrun
      rw [hobservations, Option.map_some, Function.comp_apply, List.map_cons, hresults]
      rfl
    · rw [List.map_cons, after_cons_of_step hstep]
      exact hafter

end

/-- Clients that put their questions through services on one empty ledger, whatever services these
are, get the same outcomes in every interleaving, see the failures of each kind numbered from one
on, and leave the same counts. The records at the end are the same as well if the last question to
fail with each kind is. -/
theorem interleavings_agree {n : ℕ} (s : Session) (place : ℕ) (service : Fin n → ℕ)
    (hplace : s.ledgers[place]? = some .empty)
    (hservice : ∀ c, s.services[service c]? = some place) (scripts : Fin n → List Question)
    (turns turns' : List (Turn n)) (h : Interleaves scripts turns)
    (h' : Interleaves scripts turns') :
    ∃ results results' l l',
      s.Runs place service turns results l ∧ s.Runs place service turns' results' l' ∧
      (∀ kind, failing kind turns = failing kind turns' ∧
        Ledger.frequencies kind results = (List.range' 1 (failing kind turns)).map UInt64.ofNat ∧
        (failing kind turns < UInt64.size →
          (Ledger.frequencies kind results).map UInt64.toNat =
            List.range' 1 (failing kind turns))) ∧
      (∀ c, outcomesOf c turns results = (scripts c).map Question.outcome ∧
        outcomesOf c turns' results' = (scripts c).map Question.outcome) ∧
      (∀ kind, (l.get? kind).map Record.frequency = (l'.get? kind).map Record.frequency) ∧
      l.len = l'.len ∧ l.total = l'.total ∧
      ((∀ kind, lastFailing kind turns = lastFailing kind turns') → l.snapshot = l'.snapshot) := by
  let ops := (questions turns).map Question.operation
  let ops' := (questions turns').map Question.operation
  have hquestions : (questions turns).Perm (questions turns') := (h.perm h').map Prod.snd
  have hcounted := (hquestions.map Question.operation).filterMap Operation.occurrence?
  have hlength (kind : String) :
      (Ledger.countedUnder kind ops).length = (Ledger.countedUnder kind ops').length :=
    (hcounted.filter _).length_eq
  refine ⟨_, _, _, _, runs_turns hplace hservice turns, runs_turns hplace hservice turns', ?_, ?_,
    ?_, ?_, ?_, ?_⟩
  · intro kind
    have hnumbers := Ledger.reflects_empty.frequencies_results kind (questions turns)
    refine ⟨hquestions.countP_eq _, hnumbers, ?_⟩
    intro hsize
    rw [hnumbers]
    exact Ledger.map_toNat_range'_of_lt hsize
  · intro c
    rw [outcomesOf_results, outcomesOf_results, h c, h' c]
    exact ⟨rfl, rfl⟩
  · intro kind
    rw [Ledger.get?_after_empty, Ledger.get?_after_empty, Ledger.map_frequency_recordOf?,
      Ledger.map_frequency_recordOf?, hlength kind]
  · rw [Ledger.len_after_empty, Ledger.len_after_empty]
    exact (hcounted.map Occurrence.kind).dedup.length_eq
  · rw [Ledger.total_after_empty, Ledger.total_after_empty, hcounted.length_eq]
  · intro hlast
    refine Ledger.snapshot_congr (Ledger.nodup_after_empty ops) (Ledger.nodup_after_empty ops') ?_
    intro kind
    rw [Ledger.get?_after_empty, Ledger.get?_after_empty]
    refine Ledger.recordOf?_congr ?_ (hlength kind)
    rw [countedUnder_operations, countedUnder_operations, List.getLast?_map, List.getLast?_map]
    exact congrArg _ (hlast kind)

/-- One client validates and then evaluates, the other evaluates once. -/
def twoScripts : Fin 2 → List Question
  | 0 => [⟨.validity, "5 3"⟩, ⟨.value, "1 plus 1"⟩]
  | 1 => [⟨.value, "5 plus minus 2"⟩]

def alternatingTurns : List (Turn 2) :=
  [(0, ⟨.validity, "5 3"⟩), (1, ⟨.value, "5 plus minus 2"⟩), (0, ⟨.value, "1 plus 1"⟩)]

def consecutiveTurns : List (Turn 2) :=
  [(0, ⟨.validity, "5 3"⟩), (0, ⟨.value, "1 plus 1"⟩), (1, ⟨.value, "5 plus minus 2"⟩)]

theorem lastFailing_alternatingTurns (kind : String) :
    lastFailing kind alternatingTurns = lastFailing kind consecutiveTurns := by
  have hsum : Question.outcome ⟨.value, "1 plus 1"⟩ = .ok (.number 2) := by decide
  simp [lastFailing, questions, alternatingTurns, consecutiveTurns, Question.failsWith, hsum,
    List.filter_cons]

/-- Through a clone of a service and a service that shares its ledger. -/
theorem twoScripts_agree :
    ∃ s : Session, start.after [.clone 0, .share 1] = some s ∧
      s.ledgers[0]? = some .empty ∧ (∀ c : Fin 2, s.services[c.val + 1]? = some 0) ∧
      Interleaves twoScripts alternatingTurns ∧ Interleaves twoScripts consecutiveTurns ∧
      ∃ results results' l l', s.Runs 0 (fun c => c.val + 1) alternatingTurns results l ∧
        s.Runs 0 (fun c => c.val + 1) consecutiveTurns results' l' ∧
        Ledger.frequencies "expressions with invalid syntax" results = [1, 2] ∧
        l.len = l'.len ∧ l.total = l'.total ∧ l.snapshot = l'.snapshot := by
  have hservice : ∀ c : Fin 2, [0, 0, 0][c.val + 1]? = some 0 := by decide
  have halternating : Interleaves twoScripts alternatingTurns := by
    unfold Interleaves
    decide
  have hconsecutive : Interleaves twoScripts consecutiveTurns := by
    unfold Interleaves
    decide
  obtain ⟨results, results', l, l', hruns, hruns', hfrequencies, -, -, hlen, htotal, hsnapshot⟩ :=
    interleavings_agree ⟨[.empty], [0, 0, 0]⟩ 0 (fun c => c.val + 1) rfl hservice twoScripts
      alternatingTurns consecutiveTurns halternating hconsecutive
  refine ⟨_, rfl, rfl, hservice, halternating, hconsecutive, results, results', l, l', hruns,
    hruns', ?_, hlen, htotal, hsnapshot lastFailing_alternatingTurns⟩
  rw [(hfrequencies "expressions with invalid syntax").2.1]
  decide

end Session
end PhraseArithmetic
