import Mathlib.Data.List.Perm.Subperm
import PhraseArithmetic.Proofs.Evaluation.Ending
import PhraseArithmetic.Proofs.Ledger.Counting

/-!
# Records that can be made again

Where ledgers are written by asking services alone, every record is that of a phrase which has the
fault of the record's kind at the record's endpoint. Evaluation and validation share one kind of
fault, so the endpoint of a record is decided by its kind except for that one.
-/
namespace PhraseArithmetic

namespace Record

/-- Asking about the record's phrase at the record's endpoint has the fault of its kind. -/
def IsReproducible (r : Record) : Prop :=
  ∃ (q : Inquiry) (fault : Fault), r.endpoint = q.endpoint.path ∧ r.kind = fault.kind ∧
    q.judge r.expression = .error fault

/-- What a record of a ledger tells about the phrase in it. -/
structure IsGenuine (r : Record) : Prop where
  kind_mem : r.kind ∈ Fault.all.map Fault.kind
  endpoint_eq : r.endpoint = "/extractNumber" ∨ r.endpoint = "/validateExpression"
  evaluate_eq : r.endpoint = "/extractNumber" →
    ∃ fault : Fault, fault.kind = r.kind ∧ Token.evaluate (Token.scan r.expression) = .error fault
  validate_eq : r.endpoint = "/validateExpression" →
    ∃ fault : Fault, fault.kind = r.kind ∧ Token.validate (Token.scan r.expression) = .error fault
  evaluated : r.kind = "division by zero" ∨ r.kind = "unsupported operator" ∨
    r.kind = "no number found in the expression" → r.endpoint = "/extractNumber"
  validated : r.kind = "unsupported operations" ∨ r.kind = "non-math question" →
    r.endpoint = "/validateExpression"

theorem IsReproducible.isGenuine {r : Record} (h : r.IsReproducible) : r.IsGenuine := by
  obtain ⟨q, fault, hendpoint, hkind, hjudge⟩ := h
  have hmem : r.kind ∈ Fault.all.map Fault.kind := by
    rw [hkind]
    cases fault <;> simp [Fault.all]
  cases q with
  | value =>
    replace hendpoint : r.endpoint = "/extractNumber" := hendpoint
    have heval := Inquiry.judge_value_eq_error_iff.1 hjudge
    refine ⟨hmem, .inl hendpoint, fun _ => ⟨fault, hkind.symm, heval⟩, ?_, fun _ => hendpoint, ?_⟩
    · intro h
      simp [hendpoint] at h
    · intro h
      rcases Token.fault_of_evaluate heval with rfl | rfl | rfl | rfl <;>
        simp [hkind, Fault.kind] at h
  | validity =>
    replace hendpoint : r.endpoint = "/validateExpression" := hendpoint
    have hvalid := Inquiry.judge_validity_eq_error_iff.1 hjudge
    refine ⟨hmem, .inr hendpoint, ?_, fun _ => ⟨fault, hkind.symm, hvalid⟩, ?_, fun _ => hendpoint⟩
    · intro h
      simp [hendpoint] at h
    · intro h
      rcases Token.fault_of_validateFrom hvalid with rfl | rfl | rfl <;>
        simp [hkind, Fault.kind] at h

end Record

/-- Nothing is counted but the faults of phrases that are asked about. -/
def Operation.asksOrReads : Operation → Bool
  | increment _ | record _ _ _ => false
  | _ => true

def Step.asksOrReads : Step → Bool
  | operate _ op => op.asksOrReads
  | _ => true

theorem Operation.exists_fault {op : Operation} {o : Occurrence} (h : op.asksOrReads = true)
    (ho : op.occurrence? = some o) :
    ∃ (q : Inquiry) (fault : Fault), o.endpoint = q.endpoint.path ∧ o.kind = fault.kind ∧
      q.judge o.expression = .error fault := by
  cases op with
  | ask q phrase =>
    cases hj : q.judge phrase with
    | ok a => simp [occurrence?_ask_of_ok hj] at ho
    | error fault =>
      rw [occurrence?_ask_of_error hj] at ho
      obtain rfl := Option.some.inj ho
      exact ⟨q, fault, rfl, rfl, hj⟩
  | increment o => simp [asksOrReads] at h
  | record fault endpoint expression => simp [asksOrReads] at h
  | get kind => simp [occurrence?] at ho
  | snapshot => simp [occurrence?] at ho
  | counts => simp [occurrence?] at ho

namespace Ledger

/-- At most `n` occurrences made the ledger, each the fault of a phrase that was asked about. -/
def MadeByAsking (n : ℕ) (l : Ledger) : Prop :=
  ∃ history, l.Reflects history ∧ (∀ r ∈ history, r.IsReproducible) ∧ history.length ≤ n

section
variable {l : Ledger} {n : ℕ}

theorem MadeByAsking.mono {m : ℕ} (h : l.MadeByAsking n) (hle : n ≤ m) : l.MadeByAsking m := by
  obtain ⟨history, hreflects, hall, hlength⟩ := h
  exact ⟨history, hreflects, hall, Nat.le_trans hlength hle⟩

theorem MadeByAsking.apply (h : l.MadeByAsking n) {op : Operation} (hop : op.asksOrReads = true) :
    (op.apply l).MadeByAsking (n + 1) := by
  cases ho : op.occurrence? with
  | none =>
    rw [op.apply_of_none ho]
    exact h.mono (Nat.le_succ n)
  | some o =>
    obtain ⟨history, hreflects, hall, hlength⟩ := h
    have hrecount : (l.recount o).IsReproducible := Operation.exists_fault hop ho
    rw [(op.counts_of_some ho l).1]
    refine ⟨history ++ [l.recount o], hreflects.increment o, ?_, by simpa using hlength⟩
    intro r hr
    rcases List.mem_append.1 hr with hr | hr
    · exact hall r hr
    · rwa [List.mem_singleton.1 hr]

theorem MadeByAsking.isGenuine (h : l.MadeByAsking n) {r : Record} (hr : r ∈ l.records) :
    r.IsGenuine ∧ ∃ count, 1 ≤ count ∧ count ≤ n ∧ r.frequency = UInt64.ofNat count := by
  obtain ⟨history, hreflects, hall, hlength⟩ := h
  have hget := get?_of_mem hreflects.nodup hr
  have hmem : r ∈ history := by
    rw [hreflects.get?_eq] at hget
    exact List.mem_reverse.1 (List.mem_of_find?_eq_some hget)
  refine ⟨(hall r hmem).isGenuine, history.countP (·.kind == r.kind), ?_, ?_, ?_⟩
  · exact List.countP_pos_iff.2 ⟨r, hmem, by simp⟩
  · exact Nat.le_trans List.countP_le_length hlength
  · exact hreflects.frequency_eq r.kind r hget

/-- There is at most one record for each of the six faults. -/
theorem MadeByAsking.len_le (h : l.MadeByAsking n) : l.len ≤ 6 := by
  have hsubset : l.records.map Record.kind ⊆ Fault.all.map Fault.kind := by
    intro kind hkind
    obtain ⟨r, hr, rfl⟩ := List.mem_map.1 hkind
    exact (h.isGenuine hr).1.kind_mem
  obtain ⟨history, hreflects, -⟩ := h
  have hle := (List.subperm_of_subset hreflects.nodup hsubset).length_le
  simpa [len, Fault.all] using hle

end
end Ledger

namespace Session

section
variable {s next : Session} {observation : Observation} {l : Ledger} {n : ℕ}

/-- A ledger after a step was there before, or is new, or comes of an operation on one that was
there. -/
theorem mem_ledgers_of_step {step : Step} (h : s.step step = some (next, observation))
    (hl : l ∈ next.ledgers) :
    l ∈ s.ledgers ∨ l = .empty ∨
      ∃ service op, step = .operate service op ∧ ∃ l' ∈ s.ledgers, l = op.apply l' := by
  cases step with
  | create =>
    rw [eq_of_create h] at hl
    rcases List.mem_append.1 hl with hl | hl
    · exact .inl hl
    · exact .inr (.inl (List.mem_singleton.1 hl))
  | clone source =>
    obtain ⟨place, -, rfl⟩ := exists_place_of_addService h
    exact .inl hl
  | share source =>
    obtain ⟨place, -, rfl⟩ := exists_place_of_addService h
    exact .inl hl
  | operate service op =>
    obtain ⟨place, l', -, hl', rfl, -⟩ := exists_ledger_of_operate h
    rcases List.mem_or_eq_of_mem_set hl with hl | rfl
    · exact .inl hl
    · exact .inr (.inr ⟨service, op, rfl, l', List.mem_of_getElem? hl', rfl⟩)

theorem madeByAsking_step {step : Step} (hall : ∀ l ∈ s.ledgers, l.MadeByAsking n)
    (hstep : step.asksOrReads = true) (h : s.step step = some (next, observation)) :
    ∀ l ∈ next.ledgers, l.MadeByAsking (n + 1) := by
  intro l hl
  rcases mem_ledgers_of_step h hl with hl | rfl | ⟨service, op, rfl, l', hl', rfl⟩
  · exact (hall l hl).mono (Nat.le_succ n)
  · exact ⟨[], Ledger.reflects_empty, by simp, by simp⟩
  · exact (hall l' hl').apply hstep

theorem madeByAsking_after {steps : List Step} (hall : ∀ l ∈ s.ledgers, l.MadeByAsking n)
    (hsteps : ∀ step ∈ steps, step.asksOrReads = true) (h : s.after steps = some next) :
    ∀ l ∈ next.ledgers, l.MadeByAsking (n + steps.length) := by
  induction steps generalizing s n with
  | nil =>
    obtain rfl := Option.some.inj h
    exact hall
  | cons step steps ih =>
    simp only [after, Option.bind_eq_bind, Option.bind_eq_some_iff] at h
    obtain ⟨⟨s', observation⟩, hstep, h⟩ := h
    rw [List.length_cons, Nat.add_comm steps.length, ← Nat.add_assoc]
    exact ih (madeByAsking_step hall (hsteps step (by simp)) hstep)
      (fun step' hmem => hsteps step' (List.mem_cons_of_mem step hmem)) h

end

/-- In a session where services are only made, shared, asked and read, each record is stored under
its own kind and tells of a phrase that fails again in the same way. Its frequency counts at least
one step and no more than there were. -/
theorem records_reproducible (steps : List Step)
    (hsteps : ∀ step ∈ steps, step.asksOrReads = true) (s : Session)
    (hs : start.after steps = some s) (l : Ledger) (hl : l ∈ s.ledgers) :
    (∀ kind r, l.get? kind = some r → r.kind = kind ∧ r ∈ l.snapshot) ∧
    (∀ r ∈ l.snapshot, l.get? r.kind = some r ∧ r.IsGenuine ∧
      (∃ count, 1 ≤ count ∧ count ≤ steps.length ∧ r.frequency = UInt64.ofNat count) ∧
        (steps.length < UInt64.size → 1 ≤ r.frequency)) ∧
    l.len ≤ 6 := by
  have hmade : l.MadeByAsking (0 + steps.length) := by
    refine madeByAsking_after ?_ hsteps hs l hl
    intro l' hl'
    obtain rfl : l' = .empty := by simpa [start] using hl'
    exact ⟨[], Ledger.reflects_empty, by simp, by simp⟩
  rw [Nat.zero_add] at hmade
  refine ⟨?_, ?_, hmade.len_le⟩
  · intro kind r hget
    have hmem := List.mem_of_find?_eq_some hget
    exact ⟨by simpa using List.find?_some hget, l.snapshot_perm.mem_iff.2 hmem⟩
  · intro r hr
    replace hr := l.snapshot_perm.mem_iff.1 hr
    obtain ⟨hgenuine, count, hpos, hle, hfrequency⟩ := hmade.isGenuine hr
    obtain ⟨history, hreflects, -⟩ := hmade
    refine ⟨Ledger.get?_of_mem hreflects.nodup hr, hgenuine, ⟨count, hpos, hle, hfrequency⟩, ?_⟩
    intro hlength
    have hcount : count < UInt64.size := Nat.lt_of_le_of_lt hle hlength
    rw [hfrequency, UInt64.le_iff_toNat_le, UInt64.toNat_ofNat', Nat.mod_eq_of_lt hcount]
    exact hpos

/-- One kind of fault found at both endpoints through two services, and another fault. -/
def conversation : List Step :=
  [.clone 0, .operate 0 (.ask .validity "5 3"), .operate 1 (.ask .value "5 plus minus 2"),
    .share 1, .operate 2 (.ask .value "1 plus 1"), .operate 2 (.ask .validity "hello")]

def conversationLedger : Ledger where
  records :=
    [⟨"5 plus minus 2", "/extractNumber", 2, "expressions with invalid syntax"⟩,
      ⟨"hello", "/validateExpression", 1, "non-math question"⟩]

theorem conversation_reproducible :
    (∀ step ∈ conversation, step.asksOrReads = true) ∧
      start.after conversation = some ⟨[conversationLedger], [0, 0, 0]⟩ ∧
      (∀ r ∈ conversationLedger.snapshot, conversationLedger.get? r.kind = some r ∧ r.IsGenuine ∧
        (∃ count, 1 ≤ count ∧ count ≤ 6 ∧ r.frequency = UInt64.ofNat count) ∧
          (6 < UInt64.size → 1 ≤ r.frequency)) ∧
      conversationLedger.len ≤ 6 := by
  have hsteps : ∀ step ∈ conversation, step.asksOrReads = true := by decide
  have hafter : start.after conversation = some ⟨[conversationLedger], [0, 0, 0]⟩ := by
    decide +kernel
  obtain ⟨-, hrecords, hlen⟩ :=
    records_reproducible conversation hsteps _ hafter conversationLedger (by simp)
  exact ⟨hsteps, hafter, hrecords, hlen⟩

end Session
end PhraseArithmetic
