import PhraseArithmetic.Proofs.Ledger.History
import PhraseArithmetic.Session

/-!
# Counting exactly

An operation on a ledger counts one occurrence or none. What a ledger then holds under a kind is
decided by the occurrences of that kind alone: their number is the frequency, and the last of them
gives the endpoint and the expression.
-/
namespace PhraseArithmetic

/-- What a record says of the latest occurrence of its kind. -/
def Record.occurrence (r : Record) : Occurrence := ⟨r.kind, r.endpoint, r.expression⟩

/-- The record that a step gives back; a failure is given back as the record that it reports. -/
def StepResult.record? : StepResult → Option Record
  | answered (.error failure) => some failure.toRecord
  | counted record => some record
  | recorded failure => some failure.toRecord
  | _ => none

namespace Operation

/-- What an operation counts, if it counts anything. -/
def occurrence? : Operation → Option Occurrence
  | ask q phrase =>
    match q.judge phrase with
    | .ok _ => none
    | .error fault => some (q.occurrence fault phrase)
  | increment o => some o
  | record fault endpoint expression => some ⟨fault.kind, endpoint, expression⟩
  | get _ | snapshot | counts => none

theorem occurrence?_ask_of_ok {q : Inquiry} {phrase : String} {a : Answer}
    (h : q.judge phrase = .ok a) : (ask q phrase).occurrence? = none := by
  simp [occurrence?, h]

theorem occurrence?_ask_of_error {q : Inquiry} {phrase : String} {fault : Fault}
    (h : q.judge phrase = .error fault) :
    (ask q phrase).occurrence? = some (q.occurrence fault phrase) := by
  simp [occurrence?, h]

section
variable {op : Operation} {o : Occurrence}

theorem apply_of_none (h : op.occurrence? = none) (l : Ledger) : op.apply l = l := by
  cases op with
  | ask q phrase =>
    cases hj : q.judge phrase with
    | ok a => rw [apply, Inquiry.ask_of_ok hj]
    | error fault => simp [occurrence?_ask_of_error hj] at h
  | increment o => simp [occurrence?] at h
  | record fault endpoint expression => simp [occurrence?] at h
  | get kind => rfl
  | snapshot => rfl
  | counts => rfl

/-- An operation that counts does so once and gives back the record that it has made. -/
theorem counts_of_some (h : op.occurrence? = some o) (l : Ledger) :
    op.apply l = l.increment o ∧ (op.observe l).result.record? = some (l.recount o) := by
  cases op with
  | ask q phrase =>
    cases hj : q.judge phrase with
    | ok a => simp [occurrence?_ask_of_ok hj] at h
    | error fault =>
      rw [occurrence?_ask_of_error hj] at h
      rw [apply, observe, Inquiry.ask_of_error hj, Option.some.inj h]
      exact ⟨rfl, congrArg (fun o => some (l.recount o)) (Option.some.inj h)⟩
  | increment p =>
    obtain rfl : p = o := by simpa [occurrence?] using h
    exact ⟨rfl, rfl⟩
  | record fault endpoint expression =>
    obtain rfl : ⟨fault.kind, endpoint, expression⟩ = o := by simpa [occurrence?] using h
    exact ⟨rfl, rfl⟩
  | get kind => simp [occurrence?] at h
  | snapshot => simp [occurrence?] at h
  | counts => simp [occurrence?] at h

end
end Operation

namespace Ledger

def after (l : Ledger) (ops : List Operation) : Ledger := ops.foldl (fun l op => op.apply l) l

@[simp] theorem after_nil (l : Ledger) : l.after [] = l := rfl

@[simp] theorem after_cons (l : Ledger) (op : Operation) (ops : List Operation) :
    l.after (op :: ops) = (op.apply l).after ops := rfl

@[simp] theorem after_concat (l : Ledger) (ops : List Operation) (op : Operation) :
    l.after (ops ++ [op]) = op.apply (l.after ops) := by
  simp [after]

/-- The occurrences that operations count under a kind, the earliest first. -/
def countedUnder (kind : String) (ops : List Operation) : List Occurrence :=
  (ops.filterMap Operation.occurrence?).filter (·.kind == kind)

/-- The record that occurrences of one kind make: their number and what the last of them was. -/
def recordOf? (occurrences : List Occurrence) : Option Record :=
  occurrences.getLast?.map fun last =>
    ⟨last.expression, last.endpoint, UInt64.ofNat occurrences.length, last.kind⟩

theorem recordOf?_congr {os os' : List Occurrence} (hlast : os.getLast? = os'.getLast?)
    (hlength : os.length = os'.length) : recordOf? os = recordOf? os' := by
  rw [recordOf?, recordOf?, hlast, hlength]

theorem map_frequency_recordOf? (os : List Occurrence) :
    (recordOf? os).map Record.frequency =
      if os.length = 0 then none else some (UInt64.ofNat os.length) := by
  cases os with
  | nil => rfl
  | cons o os => simp [recordOf?, List.getLast?_cons]

section
variable {l : Ledger} {history : List Record}

theorem Reflects.after (h : l.Reflects history) (ops : List Operation) :
    ∃ later, (l.after ops).Reflects (history ++ later) ∧
      later.map Record.occurrence = ops.filterMap Operation.occurrence? := by
  induction ops generalizing l history with
  | nil => exact ⟨[], by simpa using h, rfl⟩
  | cons op ops ih =>
    cases ho : op.occurrence? with
    | none =>
      obtain ⟨later, hlater, hmap⟩ := ih h
      rw [after_cons, op.apply_of_none ho]
      exact ⟨later, hlater, by simpa [ho] using hmap⟩
    | some o =>
      obtain ⟨later, hlater, hmap⟩ := ih (h.increment o)
      rw [after_cons, (op.counts_of_some ho l).1]
      exact ⟨l.recount o :: later, by simpa using hlater, by simpa [ho] using ⟨rfl, hmap⟩⟩

theorem Reflects.get?_eq_recordOf? (h : l.Reflects history) (kind : String) :
    l.get? kind = recordOf? ((history.map Record.occurrence).filter (·.kind == kind)) := by
  have hfilter : (history.map Record.occurrence).filter (·.kind == kind) =
      (history.filter (·.kind == kind)).map Record.occurrence := by
    rw [List.filter_map]
    rfl
  have hlast : (history.filter (·.kind == kind)).getLast? = l.get? kind := by
    rw [h.get?_eq kind, List.getLast?_eq_head?_reverse, ← List.filter_reverse, List.head?_filter]
  rw [hfilter, recordOf?, List.getLast?_map, hlast, List.length_map, ← List.countP_eq_length_filter]
  cases hget : l.get? kind with
  | none => rfl
  | some r => simp [Record.occurrence, ← h.frequency_eq kind r hget]

theorem exists_reflects_after_empty (ops : List Operation) :
    ∃ history, (empty.after ops).Reflects history ∧
      history.map Record.occurrence = ops.filterMap Operation.occurrence? := by
  simpa using reflects_empty.after ops

theorem get?_after_empty (ops : List Operation) (kind : String) :
    (empty.after ops).get? kind = recordOf? (countedUnder kind ops) := by
  obtain ⟨history, hreflects, hmap⟩ := exists_reflects_after_empty ops
  rw [hreflects.get?_eq_recordOf? kind, hmap, countedUnder]

theorem nodup_after_empty (ops : List Operation) :
    ((empty.after ops).records.map Record.kind).Nodup := by
  obtain ⟨history, hreflects, -⟩ := exists_reflects_after_empty ops
  exact hreflects.nodup

theorem len_after_empty (ops : List Operation) :
    (empty.after ops).len =
      ((ops.filterMap Operation.occurrence?).map Occurrence.kind).dedup.length := by
  obtain ⟨history, hreflects, hmap⟩ := exists_reflects_after_empty ops
  rw [hreflects.len_eq, ← hmap, List.map_map]
  rfl

theorem total_after_empty (ops : List Operation) :
    (empty.after ops).total = UInt64.ofNat (ops.filterMap Operation.occurrence?).length := by
  obtain ⟨history, hreflects, hmap⟩ := exists_reflects_after_empty ops
  rw [hreflects.total_eq, ← hmap, List.length_map]

theorem length_countedUnder_le (kind : String) (ops : List Operation) :
    (countedUnder kind ops).length ≤ ops.length :=
  Nat.le_trans (List.length_filter_le _ _) (List.length_filterMap_le _ _)

end

/-- After a run of operations on an empty ledger a kind has a record if an occurrence was counted
under it, the record gives their number and the last of them, and each operation that counts gives
back the record that it leaves and touches no other. -/
theorem after_counts_exactly (ops : List Operation) (hlength : ops.length < UInt64.size) :
    (∀ kind, (empty.after ops).get? kind = none ↔ countedUnder kind ops = []) ∧
    (∀ kind last, (countedUnder kind ops).getLast? = some last →
      ∃ r, (empty.after ops).get? kind = some r ∧ r.kind = kind ∧
        r.frequency.toNat = (countedUnder kind ops).length ∧
          r.endpoint = last.endpoint ∧ r.expression = last.expression) ∧
    ∀ front op back o, ops = front ++ op :: back → op.occurrence? = some o →
      (op.observe (empty.after front)).result.record? =
          (empty.after (front ++ [op])).get? o.kind ∧
        ∀ kind, kind ≠ o.kind →
          (empty.after (front ++ [op])).get? kind = (empty.after front).get? kind := by
  refine ⟨?_, ?_, ?_⟩
  · intro kind
    simp [get?_after_empty, recordOf?]
  · intro kind last hlast
    have hkind : last.kind = kind := by
      simpa using (List.mem_filter.1 (List.mem_of_getLast? hlast)).2
    have hsize := Nat.lt_of_le_of_lt (length_countedUnder_le kind ops) hlength
    refine ⟨_, by rw [get?_after_empty, recordOf?, hlast, Option.map_some], hkind, ?_, rfl, rfl⟩
    rw [UInt64.toNat_ofNat', Nat.mod_eq_of_lt hsize]
  · intro front op back o _ ho
    obtain ⟨happly, hobserve⟩ := op.counts_of_some ho (empty.after front)
    rw [hobserve, after_concat, happly]
    refine ⟨(get?_increment_self _ o).symm, ?_⟩
    intro kind hkind
    exact get?_increment_of_ne _ hkind.symm

/-- One kind counted twice, in both ways, between others. -/
def countings : List Operation :=
  [.record .divisionByZero "/extractNumber" "1 divided 0", .increment ⟨"", "", "é"⟩,
    .get "division by zero", .increment ⟨"division by zero", "elsewhere", "2 divided 0"⟩, .counts,
    .increment ⟨"Division by zero", "", ""⟩]

theorem countings_count :
    countings.length < UInt64.size ∧
      (countedUnder "division by zero" countings).getLast? =
        some ⟨"division by zero", "elsewhere", "2 divided 0"⟩ ∧
      ∃ r, (empty.after countings).get? "division by zero" = some r ∧ r.kind = "division by zero" ∧
        r.frequency.toNat = 2 ∧ r.endpoint = "elsewhere" ∧ r.expression = "2 divided 0" := by
  have hlength : countings.length < UInt64.size := by decide
  have hlast : (countedUnder "division by zero" countings).getLast? =
      some ⟨"division by zero", "elsewhere", "2 divided 0"⟩ := by decide
  obtain ⟨-, hget, -⟩ := after_counts_exactly countings hlength
  exact ⟨hlength, hlast, hget _ _ hlast⟩

end Ledger
end PhraseArithmetic
