import PhraseArithmetic.Proofs.Ledger.History

/-!
# What a ledger tells the log

A ledger announces an occurrence when it holds no record of its kind. So its announcements, all
taken together, are one for each kind that it holds, in the order in which the kinds came, and each
names the endpoint where the kind occurred first.
-/
namespace PhraseArithmetic

/-- The line of the log for the record of a first occurrence. -/
def Record.announcement (r : Record) : Log.Event :=
  ⟨.debug, s!"First occurrence of error kind '{r.kind}' on {r.endpoint}"⟩

/-- The records of a history that are the first of their kinds, in their order. -/
structure AreFirsts (history firsts : List Record) : Prop where
  sublist : firsts.Sublist history
  nodup : (firsts.map Record.kind).Nodup
  mem_kinds_iff : ∀ kind, kind ∈ firsts.map Record.kind ↔ kind ∈ history.map Record.kind
  find?_eq : ∀ r ∈ firsts, history.find? (·.kind == r.kind) = some r

namespace AreFirsts

theorem nil : AreFirsts [] [] := ⟨.slnil, by simp, by simp, by simp⟩

section
variable {history firsts : List Record} {r : Record}

theorem concat_of_mem (h : AreFirsts history firsts) (hr : r.kind ∈ history.map Record.kind) :
    AreFirsts (history ++ [r]) firsts where
  sublist := h.sublist.trans (List.sublist_append_left _ _)
  nodup := h.nodup
  mem_kinds_iff kind := by
    rw [h.mem_kinds_iff, List.map_append, List.mem_append]
    constructor
    · exact .inl
    · rintro (hkind | hkind)
      · exact hkind
      · obtain rfl : kind = r.kind := by simpa using hkind
        exact hr
  find?_eq s hs := by rw [List.find?_append, h.find?_eq s hs, Option.some_or]

theorem concat_of_notMem (h : AreFirsts history firsts) (hr : r.kind ∉ history.map Record.kind) :
    AreFirsts (history ++ [r]) (firsts ++ [r]) where
  sublist := h.sublist.append (.refl _)
  nodup := by
    rw [List.map_append, List.nodup_append]
    refine ⟨h.nodup, by simp, ?_⟩
    rintro kind hkind _ hlast rfl
    obtain rfl : kind = r.kind := by simpa using hlast
    exact hr ((h.mem_kinds_iff _).1 hkind)
  mem_kinds_iff kind := by
    rw [List.map_append, List.map_append, List.mem_append, List.mem_append, h.mem_kinds_iff]
  find?_eq s hs := by
    rcases List.mem_append.1 hs with hs | hs
    · rw [List.find?_append, h.find?_eq s hs, Option.some_or]
    · obtain rfl : s = r := List.mem_singleton.1 hs
      have hnone : history.find? (·.kind == s.kind) = none := by
        rw [List.find?_eq_none]
        intro t ht hkind
        exact hr (List.mem_map.2 ⟨t, ht, by simpa using hkind⟩)
      rw [List.find?_append, hnone]
      simp

end
end AreFirsts

namespace Ledger

theorem announcement_eq (l : Ledger) (o : Occurrence) :
    l.announcement o = if (l.get? o.kind).isNone then [(l.recount o).announcement] else [] := rfl

section
variable {l : Ledger} {history : List Record}

theorem Reflects.isSome_iff (h : l.Reflects history) (kind : String) :
    (l.get? kind).isSome = true ↔ kind ∈ history.map Record.kind := by
  rw [h.get?_eq kind, List.find?_isSome]
  simp

/-- An occurrence is announced exactly if the history has no record of its kind. -/
theorem Reflects.announcement_eq (h : l.Reflects history) (o : Occurrence) :
    l.announcement o =
      if o.kind ∈ history.map Record.kind then [] else [(l.recount o).announcement] := by
  have hkind := h.isSome_iff o.kind
  cases hget : l.get? o.kind with
  | none =>
    have hnew : o.kind ∉ history.map Record.kind := by simp [← hkind, hget]
    rw [Ledger.announcement_eq, hget, if_neg hnew]
    rfl
  | some r =>
    have hheld : o.kind ∈ history.map Record.kind := by simp [← hkind, hget]
    rw [Ledger.announcement_eq, hget, if_pos hheld]
    rfl

/-- Fewer occurrences than a word can hold are counted without wrapping. -/
theorem Reflects.frequency_recount_eq_one_iff (h : l.Reflects history)
    (hlength : history.length + 1 < UInt64.size) (o : Occurrence) :
    (l.recount o).frequency = 1 ↔ l.get? o.kind = none := by
  have hle : history.countP (·.kind == o.kind) ≤ history.length := List.countP_le_length
  have hword : history.countP (·.kind == o.kind) + 1 < UInt64.size := by omega
  rw [h.frequency_recount o, ← UInt64.toNat_inj, UInt64.toNat_ofNat', Nat.mod_eq_of_lt hword,
    h.get?_eq o.kind]
  simp [List.countP_eq_zero]

end

/-- The lines are the announcements of the first records of a ledger's history. -/
structure Announced (l : Ledger) (history : List Record) (lines : List Log.Event) : Prop where
  reflects : l.Reflects history
  exists_firsts : ∃ firsts, AreFirsts history firsts ∧ lines = firsts.map Record.announcement

theorem announced_empty : Announced empty [] [] := ⟨reflects_empty, [], .nil, rfl⟩

theorem Announced.increment {l : Ledger} {history : List Record} {lines : List Log.Event}
    (h : Announced l history lines) (o : Occurrence) :
    Announced (l.increment o) (history ++ [l.recount o]) (lines ++ l.announcement o) := by
  obtain ⟨hreflects, firsts, hfirsts, rfl⟩ := h
  refine ⟨hreflects.increment o, ?_⟩
  rw [hreflects.announcement_eq]
  by_cases hkind : o.kind ∈ history.map Record.kind
  · exact ⟨firsts, hfirsts.concat_of_mem hkind, by rw [if_pos hkind, List.append_nil]⟩
  · refine ⟨firsts ++ [l.recount o], hfirsts.concat_of_notMem hkind, ?_⟩
    rw [if_neg hkind, List.map_append, List.map_singleton]

end Ledger
end PhraseArithmetic
