import Mathlib.Algebra.BigOperators.Group.List.Lemmas
import Mathlib.Algebra.Ring.Nat
import PhraseArithmetic.Proofs.Ledger.Counting

/-!
# One ledger in five views

A ledger may be listed, looked up by kind, asked for its length, for being empty and for its total.
After any run of operations on an empty ledger these say the same. The frequencies add up to the
number of occurrences counted, so the total is exact while that number fits into a word. What is
found under the kinds decides the list, whatever order the kinds came in.
-/
namespace PhraseArithmetic.Ledger

/-- The list is in the strict order of the octets of its kinds, and every other view says what the
list says. The sum is one of whole numbers. -/
structure ViewsAgree (l : Ledger) : Prop where
  ascending : (l.snapshot.map Record.kind).Pairwise fun a b => Text.octets a < Text.octets b
  mem_snapshot_iff : ∀ r, r ∈ l.snapshot ↔ l.get? r.kind = some r
  len_eq : l.len = l.snapshot.length
  isEmpty_iff : l.isEmpty = true ↔ l.snapshot = []
  total_eq : l.total.toNat = (l.snapshot.map fun r => r.frequency.toNat).sum

theorem mem_snapshot_iff_get? {l : Ledger} (h : (l.records.map Record.kind).Nodup) (r : Record) :
    r ∈ l.snapshot ↔ l.get? r.kind = some r := by
  rw [(snapshot_perm l).mem_iff, mem_records_iff h]

theorem len_eq_length_snapshot (l : Ledger) : l.len = l.snapshot.length :=
  (snapshot_perm l).length_eq.symm

theorem isEmpty_iff_snapshot_eq_nil (l : Ledger) : l.isEmpty = true ↔ l.snapshot = [] := by
  rw [isEmpty, List.isEmpty_iff_length_eq_zero, ← (snapshot_perm l).length_eq,
    List.length_eq_zero_iff]

section
variable {l : Ledger} {history : List Record}

theorem Reflects.frequency_toNat (h : l.Reflects history) (hlength : history.length < UInt64.size)
    {r : Record} (hr : r ∈ l.records) :
    r.frequency.toNat = (history.map Record.kind).count r.kind := by
  have hcount : history.countP (·.kind == r.kind) = (history.map Record.kind).count r.kind := by
    rw [List.count, List.countP_map]
    rfl
  have hle : history.countP (·.kind == r.kind) ≤ history.length := List.countP_le_length
  rw [h.frequency_eq r.kind r (get?_of_mem h.nodup hr), UInt64.toNat_ofNat',
    Nat.mod_eq_of_lt (Nat.lt_of_le_of_lt hle hlength), hcount]

/-- Each occurrence is counted in the frequency of its own kind and in no other. -/
theorem Reflects.sum_frequencies (h : l.Reflects history)
    (hlength : history.length < UInt64.size) :
    (l.snapshot.map fun r => r.frequency.toNat).sum = history.length := by
  let kinds := history.map Record.kind
  have hfrequencies : (l.records.map fun r => r.frequency.toNat) =
      (l.records.map Record.kind).map fun kind => kinds.count kind := by
    rw [List.map_map]
    exact List.map_congr_left fun r hr => h.frequency_toNat hlength hr
  calc (l.snapshot.map fun r => r.frequency.toNat).sum
      = (l.records.map fun r => r.frequency.toNat).sum := ((snapshot_perm l).map _).sum_eq
    _ = ((l.records.map Record.kind).map fun kind => kinds.count kind).sum := by rw [hfrequencies]
    _ = (kinds.dedup.map fun kind => kinds.count kind).sum := (h.perm_kinds.map _).sum_eq
    _ = history.length := by rw [List.sum_map_count_dedup_eq_length, List.length_map]

theorem Reflects.total_toNat (h : l.Reflects history) (hlength : history.length < UInt64.size) :
    l.total.toNat = history.length := by
  rw [h.total_eq, UInt64.toNat_ofNat', Nat.mod_eq_of_lt hlength]

theorem Reflects.viewsAgree (h : l.Reflects history) (hlength : history.length < UInt64.size) :
    l.ViewsAgree where
  ascending := pairwise_snapshot h.nodup
  mem_snapshot_iff := mem_snapshot_iff_get? h.nodup
  len_eq := l.len_eq_length_snapshot
  isEmpty_iff := l.isEmpty_iff_snapshot_eq_nil
  total_eq := by rw [h.total_toNat hlength, h.sum_frequencies hlength]

end

/-- After operations that count fewer occurrences than a word can hold, the views agree and the
total is the number of occurrences. Ledgers in which the same is found under every kind are listed
alike, however they came about. -/
theorem views_agree_after (ops : List Operation)
    (hcounted : (ops.filterMap Operation.occurrence?).length < UInt64.size) :
    (empty.after ops).ViewsAgree ∧
    (empty.after ops).total.toNat = (ops.filterMap Operation.occurrence?).length ∧
    ∀ others : List Operation,
      (∀ kind, (empty.after ops).get? kind = (empty.after others).get? kind) →
        (empty.after ops).snapshot = (empty.after others).snapshot := by
  obtain ⟨history, hreflects, hmap⟩ := exists_reflects_after_empty ops
  have hlength : (ops.filterMap Operation.occurrence?).length = history.length := by
    rw [← hmap, List.length_map]
  rw [hlength] at hcounted
  refine ⟨hreflects.viewsAgree hcounted, ?_, ?_⟩
  · rw [hlength]
    exact hreflects.total_toNat hcounted
  · intro others hget
    exact snapshot_congr (nodup_after_empty ops) (nodup_after_empty others) hget

/-- Four occurrences of three kinds, and the same occurrences with their kinds coming in another
order. -/
def fourCountings : List Operation :=
  [.increment ⟨"é", "", "1"⟩, .record .divisionByZero "/extractNumber" "1 divided 0",
    .increment ⟨"", "", ""⟩, .increment ⟨"é", "", "2"⟩]

def fourCountingsElsewhere : List Operation :=
  [.increment ⟨"", "", ""⟩, .increment ⟨"é", "", "1"⟩, .increment ⟨"é", "", "2"⟩,
    .record .divisionByZero "/extractNumber" "1 divided 0"]

theorem fourCountings_views_agree :
    (fourCountings.filterMap Operation.occurrence?).length < UInt64.size ∧
      (empty.after fourCountings).ViewsAgree ∧ (empty.after fourCountings).total.toNat = 4 ∧
        (empty.after fourCountings).snapshot = (empty.after fourCountingsElsewhere).snapshot := by
  have hcounted : (fourCountings.filterMap Operation.occurrence?).length < UInt64.size := by decide
  obtain ⟨hviews, htotal, hsnapshot⟩ := views_agree_after fourCountings hcounted
  refine ⟨hcounted, hviews, htotal, hsnapshot fourCountingsElsewhere ?_⟩
  intro kind
  have hcountings : countedUnder kind fourCountings = countedUnder kind fourCountingsElsewhere := by
    by_cases hfirst : kind = "é"
    · subst hfirst
      decide
    · have hother : ("é" == kind) = false := by simpa using Ne.symm hfirst
      by_cases hsecond : kind = ""
      · subst hsecond
        decide
      · have hblank : ("" == kind) = false := by simpa using Ne.symm hsecond
        simp [countedUnder, fourCountings, fourCountingsElsewhere, Operation.occurrence?, hother,
          hblank, List.filter_cons]
  rw [get?_after_empty, get?_after_empty, hcountings]

end PhraseArithmetic.Ledger
