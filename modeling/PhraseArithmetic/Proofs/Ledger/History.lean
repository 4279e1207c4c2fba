import Mathlib.Data.List.Dedup
import PhraseArithmetic.Ledger

/-!
# Ledgers and their histories

The history of a ledger holds the record that each occurrence gave, the earliest first. A ledger
keeps the latest record of every kind in it, and the frequency of that record is the number of all
records of its kind. Reading a ledger therefore says what its history says.
-/
namespace PhraseArithmetic

theorem Text.octets_injective {a b : String} (h : octets a = octets b) : a = b := by
  have hbytes : a.toUTF8 = b.toUTF8 := ByteArray.ext (Array.toList_inj.1 h)
  exact String.toByteArray_inj.1 hbytes

namespace Ledger

theorem kinds_put (r : Record) (rs : List Record) :
    (put r rs).map Record.kind =
      if r.kind ∈ rs.map Record.kind then rs.map Record.kind
      else rs.map Record.kind ++ [r.kind] := by
  induction rs with
  | nil => simp [put]
  | cons s rs ih =>
    by_cases h : s.kind = r.kind
    · simp [put, h]
    · have h' : r.kind ≠ s.kind := fun he => h he.symm
      simp only [put, if_neg h, List.map_cons, ih, List.mem_cons, h', false_or]
      split <;> simp

theorem nodup_put {rs : List Record} (h : (rs.map Record.kind).Nodup) (r : Record) :
    ((put r rs).map Record.kind).Nodup := by
  rw [kinds_put]
  split
  · exact h
  · next hmem =>
    rw [List.nodup_append]
    refine ⟨h, by simp, ?_⟩
    rintro k hk k' hk' rfl
    rw [List.mem_singleton] at hk'
    exact hmem (hk' ▸ hk)

theorem total_cons (r : Record) (rs : List Record) : total ⟨r :: rs⟩ = r.frequency + total ⟨rs⟩ :=
  rfl

theorem total_put_of_none {rs : List Record} {r : Record}
    (h : rs.find? (·.kind == r.kind) = none) :
    total ⟨put r rs⟩ = total ⟨rs⟩ + r.frequency := by
  induction rs with
  | nil => simp [put, total]
  | cons s rs ih =>
    have hs : s.kind ≠ r.kind := by
      intro hs
      simp [hs] at h
    have hrest : rs.find? (·.kind == r.kind) = none := by simpa [hs] using h
    rw [put, if_neg hs, total_cons, total_cons, ih hrest, UInt64.add_assoc]

theorem total_put_of_some {rs : List Record} {r s : Record}
    (h : rs.find? (·.kind == r.kind) = some s) (hr : r.frequency = s.frequency + 1) :
    total ⟨put r rs⟩ = total ⟨rs⟩ + 1 := by
  induction rs with
  | nil => simp at h
  | cons t rs ih =>
    by_cases ht : t.kind = r.kind
    · obtain rfl : t = s := by simpa [ht] using h
      rw [put, if_pos ht, total_cons, total_cons, hr, UInt64.add_assoc, UInt64.add_comm 1,
        ← UInt64.add_assoc]
    · have hrest : rs.find? (·.kind == r.kind) = some s := by simpa [ht] using h
      rw [put, if_neg ht, total_cons, total_cons, ih hrest, UInt64.add_assoc]

/-- Every occurrence adds one to the sum of the frequencies, as 64-bit words. -/
theorem total_increment (l : Ledger) (o : Occurrence) : (l.increment o).total = l.total + 1 := by
  cases h : l.get? o.kind with
  | none =>
    have hput := total_put_of_none (r := l.recount o) h
    rwa [frequency_recount_of_none h] at hput
  | some s => exact total_put_of_some (r := l.recount o) h (frequency_recount_of_some h)

/-- What a ledger has in common with the records that its occurrences gave, the earliest first. -/
structure Reflects (l : Ledger) (history : List Record) : Prop where
  nodup : (l.records.map Record.kind).Nodup
  get?_eq : ∀ kind, l.get? kind = history.reverse.find? (·.kind == kind)
  frequency_eq : ∀ kind r, l.get? kind = some r →
    r.frequency = UInt64.ofNat (history.countP (·.kind == kind))
  total_eq : l.total = UInt64.ofNat history.length

theorem reflects_empty : Reflects empty [] :=
  ⟨by simp [empty], by simp [empty, get?], by simp [empty, get?], rfl⟩

section
variable {l : Ledger} {history : List Record}

theorem Reflects.frequency_recount (h : l.Reflects history) (o : Occurrence) :
    (l.recount o).frequency = UInt64.ofNat (history.countP (·.kind == o.kind) + 1) := by
  cases hget : l.get? o.kind with
  | some r => simp [frequency_recount_of_some hget, h.frequency_eq o.kind r hget]
  | none =>
    have hnone : ∀ r ∈ history, ¬(r.kind == o.kind) = true := by
      simpa [h.get?_eq o.kind] using hget
    simp [frequency_recount_of_none hget, List.countP_eq_zero.2 hnone]

theorem Reflects.increment (h : l.Reflects history) (o : Occurrence) :
    (l.increment o).Reflects (history ++ [l.recount o]) where
  nodup := nodup_put h.nodup (l.recount o)
  get?_eq kind := by
    by_cases hk : o.kind = kind
    · subst hk
      simp [recount]
    · rw [get?_increment_of_ne l hk, h.get?_eq kind]
      simp [recount, hk]
  frequency_eq kind r hr := by
    by_cases hk : o.kind = kind
    · subst hk
      obtain rfl : l.recount o = r := by simpa using hr
      rw [h.frequency_recount o]
      simp [recount]
    · rw [get?_increment_of_ne l hk] at hr
      rw [h.frequency_eq kind r hr]
      simp [recount, hk]
  total_eq := by
    rw [total_increment, h.total_eq]
    simp

theorem Reflects.mem_kinds_iff (h : l.Reflects history) (kind : String) :
    kind ∈ l.records.map Record.kind ↔ ∃ r ∈ history, r.kind = kind := by
  have hget : (l.get? kind).isSome ↔ (history.reverse.find? (·.kind == kind)).isSome := by
    rw [h.get?_eq kind]
  simpa [get?] using hget

theorem Reflects.perm_kinds (h : l.Reflects history) :
    (l.records.map Record.kind).Perm (history.map Record.kind).dedup := by
  rw [List.perm_ext_iff_of_nodup h.nodup (List.nodup_dedup _)]
  intro kind
  rw [h.mem_kinds_iff kind, List.mem_dedup, List.mem_map]

/-- The length is the number of different kinds in the history. -/
theorem Reflects.len_eq (h : l.Reflects history) :
    l.len = (history.map Record.kind).dedup.length := by
  rw [len, ← h.perm_kinds.length_eq, List.length_map]

theorem get?_of_mem (h : (l.records.map Record.kind).Nodup) {r : Record} (hr : r ∈ l.records) :
    l.get? r.kind = some r := by
  rw [get?, List.find?_eq_some_iff_append]
  obtain ⟨front, back, hsplit⟩ := List.append_of_mem hr
  refine ⟨by simp, front, back, hsplit, ?_⟩
  intro s hs
  rw [hsplit, List.map_append, List.nodup_append] at h
  have hne := h.2.2 s.kind (List.mem_map_of_mem hs) r.kind (by simp)
  simpa using hne

theorem snapshot_perm (l : Ledger) : l.snapshot.Perm l.records := List.mergeSort_perm _ _

/-- A snapshot is in the strict order of the octets of its kinds. -/
theorem pairwise_snapshot (h : (l.records.map Record.kind).Nodup) :
    (l.snapshot.map Record.kind).Pairwise fun a b => Text.octets a < Text.octets b := by
  have hsorted : l.snapshot.Pairwise fun a b =>
      decide (Text.octets a.kind ≤ Text.octets b.kind) = true := by
    apply List.pairwise_mergeSort
    · intro a b c hab hbc
      simp only [decide_eq_true_eq] at hab hbc ⊢
      exact List.le_trans hab hbc
    · intro a b
      simpa using List.le_total (Text.octets a.kind) (Text.octets b.kind)
  have hne : (l.snapshot.map Record.kind).Nodup :=
    ((snapshot_perm l).map Record.kind).nodup_iff.2 h
  rw [List.Nodup, List.pairwise_map] at hne
  rw [List.pairwise_map]
  refine (hsorted.and hne).imp ?_
  rintro a b ⟨hab, hkinds⟩
  rw [← List.not_le]
  intro hba
  exact hkinds (Text.octets_injective (List.le_antisymm (of_decide_eq_true hab) hba))

theorem mem_records_iff (h : (l.records.map Record.kind).Nodup) (r : Record) :
    r ∈ l.records ↔ l.get? r.kind = some r :=
  ⟨get?_of_mem h, List.mem_of_find?_eq_some⟩

/-- A snapshot is decided by what is found under each kind. -/
theorem snapshot_congr {l' : Ledger} (h : (l.records.map Record.kind).Nodup)
    (h' : (l'.records.map Record.kind).Nodup) (hget : ∀ kind, l.get? kind = l'.get? kind) :
    l.snapshot = l'.snapshot := by
  have hrecords : l.records.Perm l'.records := by
    rw [List.perm_ext_iff_of_nodup (h.of_map _) (h'.of_map _)]
    intro r
    rw [mem_records_iff h, mem_records_iff h', hget]
  have hperm := (snapshot_perm l).trans (hrecords.trans (snapshot_perm l').symm)
  have hsorted := List.pairwise_map.1 (pairwise_snapshot h)
  have hsorted' := List.pairwise_map.1 (pairwise_snapshot h')
  refine hperm.eq_of_pairwise ?_ hsorted hsorted'
  intro a b _ _ hab hba
  exact absurd (List.lt_trans hab hba) (List.lt_irrefl _)

theorem Reflects.mem_snapshot_kinds_iff (h : l.Reflects history) (kind : String) :
    kind ∈ l.snapshot.map Record.kind ↔ ∃ r ∈ history, r.kind = kind := by
  rw [← h.mem_kinds_iff kind]
  exact ((snapshot_perm l).map Record.kind).mem_iff

/-- A listed record is the latest of its kind. -/
theorem Reflects.find?_of_mem_snapshot (h : l.Reflects history) {r : Record}
    (hr : r ∈ l.snapshot) : history.reverse.find? (·.kind == r.kind) = some r := by
  rw [← h.get?_eq r.kind]
  exact get?_of_mem h.nodup ((snapshot_perm l).mem_iff.1 hr)

end
end Ledger
end PhraseArithmetic
