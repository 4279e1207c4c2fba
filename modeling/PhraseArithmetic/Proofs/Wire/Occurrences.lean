import PhraseArithmetic.Proofs.Wire.Collecting

/-!
# What occurs in an object and what is collected

Collecting comes to the end of an object when no field has more than one member and each of these
says a value for its field. What is then found for a field is what its member says.
-/
namespace PhraseArithmetic.Wire
open Json (Tree)

/-- Among the members there is one of this name, and it says the value. -/
def Occurs (entries : List (String × Tree)) (name : String) (v : Value) : Prop :=
  ∃ t, entries.filter (·.1 == name) = [(name, t)] ∧ Says t v

theorem Says.unique {t : Tree} {v w : Value} (hv : Says t v) (hw : Says t w) : v = w := by
  cases hv with
  | text s =>
    cases hw
    rfl
  | @count n c h hc =>
    cases hw with
    | @count _ d _ hd => rw [UInt64.toNat_inj.1 (hc.symm.trans hd)]

section
variable {fields : List Field} {found next all : Members} {entries : List (String × Tree)}
  {name : String} {t : Tree} {v w : Value}

theorem Occurs.unique (hv : Occurs entries name v) (hw : Occurs entries name w) : v = w := by
  obtain ⟨t, ht, hv⟩ := hv
  obtain ⟨t', ht', hw⟩ := hw
  rw [ht] at ht'
  obtain ⟨-, rfl⟩ := Prod.mk.inj (List.singleton_inj.1 ht')
  exact hv.unique hw

theorem Occurs.filter_ne_nil (h : Occurs entries name v) :
    entries.filter (·.1 == name) ≠ [] := by
  obtain ⟨t, ht, -⟩ := h
  simp [ht]

theorem occurs_cons_of_ne {m : String × Tree} (h : m.1 ≠ name) :
    Occurs (m :: entries) name v ↔ Occurs entries name v := by
  simp [Occurs, h]

theorem occurs_cons_self (h : entries.filter (·.1 == name) = []) (ht : Says t v) :
    Occurs ((name, t) :: entries) name v :=
  ⟨t, by simp [h], ht⟩

theorem Occurs.of_perm {entries' : List (String × Tree)} (h : Occurs entries name v)
    (hperm : (entries.filter (·.1 == name)).Perm (entries'.filter (·.1 == name))) :
    Occurs entries' name v := by
  obtain ⟨t, ht, hv⟩ := h
  rw [ht] at hperm
  exact ⟨t, hperm.singleton_eq.symm, hv⟩

theorem lookup_eq_none_iff_any : found.lookup name = none ↔ found.any (·.1 == name) = false := by
  rw [List.lookup_eq_none_iff, List.any_eq_false]
  simp only [bne_iff_ne, beq_iff_eq]
  exact ⟨fun h m hm he => h m hm he.symm, fun h m hm he => h m hm he.symm⟩

/-! ### Members one by one -/

theorem take?_of_unknown (h : ∀ field ∈ fields, field.name ≠ name) :
    take? fields found (name, t) = some found := by
  have hfind : fields.find? (·.name == name) = none := by simpa using h
  simp [take?, hfind]

theorem take?_of_known (hn : (fields.map Field.name).Nodup) {field : Field} (hf : field ∈ fields)
    (hfound : found.lookup field.name = none) (ht : Says t v) (hk : v.kind = field.kind) :
    take? fields found (field.name, t) = some (found ++ [(field.name, v)]) := by
  have hread : field.kind.read t.first = .ok v := Kind.read_eq_ok_iff.2 ⟨hk, ht⟩
  simp [take?, find?_of_mem hn hf, lookup_eq_none_iff_any.1 hfound, hread, Except.toOption]

/-- A member that is taken is unknown, or the first of its field and says a value for it. -/
theorem take?_cases (h : take? fields found (name, t) = some next) :
    (∀ field ∈ fields, field.name ≠ name) ∧ next = found ∨
      ∃ field ∈ fields, field.name = name ∧ found.lookup name = none ∧
        ∃ v, v.kind = field.kind ∧ Says t v ∧ next = found ++ [(name, v)] := by
  cases hfind : fields.find? (·.name == name) with
  | none =>
    have hnext : found = next := by simpa [take?, hfind] using h
    exact .inl ⟨by simpa using hfind, hnext.symm⟩
  | some field =>
    obtain rfl : field.name = name := by simpa using List.find?_some hfind
    cases hfound : found.any (·.1 == field.name) with
    | true => simp [take?, hfind, hfound] at h
    | false =>
      cases hread : field.kind.read t.first with
      | error d => simp [take?, hfind, hread, Except.toOption] at h
      | ok v =>
        have hnext : found ++ [(field.name, v)] = next := by
          simpa [take?, hfind, hfound, hread, Except.toOption] using h
        obtain ⟨hk, ht⟩ := Kind.read_eq_ok_iff.1 hread
        exact .inr ⟨field, List.mem_of_find?_eq_some hfind, rfl, lookup_eq_none_iff_any.2 hfound,
          v, hk, ht, hnext.symm⟩

theorem lookup_of_take?_of_ne (h : take? fields found (name, t) = some next) {other : String}
    (hne : other ≠ name) : next.lookup other = found.lookup other := by
  rcases take?_cases h with ⟨-, rfl⟩ | ⟨-, -, -, -, v, -, -, rfl⟩
  · rfl
  · have hlookup : [(name, v)].lookup other = none := by
      simp [List.lookup_cons, beq_false_of_ne hne]
    rw [List.lookup_append, hlookup, Option.or_none]

/-- What collecting does for one field. -/
theorem lookup_of_collect? (hn : (fields.map Field.name).Nodup)
    (h : collect? fields found entries = some all) {field : Field} (hf : field ∈ fields) :
    entries.filter (·.1 == field.name) = [] ∧ all.lookup field.name = found.lookup field.name ∨
      found.lookup field.name = none ∧ ∃ v, v.kind = field.kind ∧ Occurs entries field.name v ∧
        all.lookup field.name = some v := by
  induction entries generalizing found with
  | nil =>
    obtain rfl : found = all := Option.some.inj h
    exact .inl ⟨rfl, rfl⟩
  | cons m entries ih =>
    obtain ⟨name, t⟩ := m
    obtain ⟨next, htake, hrest⟩ := Option.bind_eq_some_iff.1 h
    by_cases hname : field.name = name
    · subst hname
      -- the member is the field's, so what follows has none
      rcases take?_cases htake with ⟨hunknown, -⟩ | ⟨field', hf', hsame, hfound, v, hk, ht, rfl⟩
      · exact absurd rfl (hunknown field hf)
      · obtain rfl : field = field' := by
          have hfind := find?_of_mem hn hf'
          rw [hsame, find?_of_mem hn hf] at hfind
          exact Option.some.inj hfind
        have hnext : (found ++ [(field.name, v)]).lookup field.name = some v := by
          simp [List.lookup_append, hfound]
        rcases ih hrest with ⟨hnone, hall⟩ | ⟨hnone, -⟩
        · exact .inr ⟨hfound, v, hk, occurs_cons_self hnone ht, hall.trans hnext⟩
        · rw [hnext] at hnone
          exact absurd hnone (by simp)
    · have hne : name ≠ field.name := Ne.symm hname
      have hnext := lookup_of_take?_of_ne htake hname
      rcases ih hrest with ⟨hnone, hall⟩ | ⟨hnone, v, hk, hv, hall⟩
      · exact .inl ⟨by simpa [hne] using hnone, hall.trans hnext⟩
      · exact .inr ⟨hnext.symm.trans hnone, v, hk, (occurs_cons_of_ne hne).2 hv, hall⟩

/-- When an object is collected to its end, a field has a value exactly when one member says it. -/
theorem lookup_collect?_eq_some_iff (hn : (fields.map Field.name).Nodup)
    (h : collect? fields [] entries = some all) {field : Field} (hf : field ∈ fields) :
    all.lookup field.name = some v ↔ v.kind = field.kind ∧ Occurs entries field.name v := by
  rcases lookup_of_collect? hn h hf with ⟨hnone, hall⟩ | ⟨-, w, hk, hw, hall⟩
  · have hno : ¬Occurs entries field.name v := fun hv => hv.filter_ne_nil hnone
    simp [hall, hno]
  · rw [hall]
    constructor
    · intro he
      obtain rfl := Option.some.inj he
      exact ⟨hk, hw⟩
    · rintro ⟨-, hv⟩
      rw [hv.unique hw]

theorem AreFinite.of_perm {entries' : List (String × Tree)} (h : AreFinite fields entries)
    (hsame : ∀ field ∈ fields,
      (entries.filter (·.1 == field.name)).Perm (entries'.filter (·.1 == field.name))) :
    AreFinite fields entries' := by
  rintro m hm ⟨field, hf, hname⟩
  have hmem : m ∈ entries'.filter (·.1 == field.name) := List.mem_filter.2 ⟨hm, by simp [hname]⟩
  exact h m (List.mem_filter.1 ((hsame field hf).mem_iff.2 hmem)).1 ⟨field, hf, hname⟩

/-- The field has no member, or one that says a value for it, and then none was found before. -/
def Fits (found : Members) (entries : List (String × Tree)) (field : Field) : Prop :=
  entries.filter (·.1 == field.name) = [] ∨
    found.lookup field.name = none ∧ ∃ v, v.kind = field.kind ∧ Occurs entries field.name v

theorem Fits.of_cons_of_ne {field : Field} (h : Fits found ((name, t) :: entries) field)
    (htake : take? fields found (name, t) = some next) (hne : field.name ≠ name) :
    Fits next entries field := by
  rw [Fits, lookup_of_take?_of_ne htake hne]
  rcases h with hnone | ⟨hnone, v, hk, hv⟩
  · exact .inl (by simpa [hne.symm] using hnone)
  · exact .inr ⟨hnone, v, hk, (occurs_cons_of_ne hne.symm).1 hv⟩

theorem Fits.of_cons_self {field : Field} (h : Fits found ((field.name, t) :: entries) field) :
    found.lookup field.name = none ∧ entries.filter (·.1 == field.name) = [] ∧
      ∃ v, v.kind = field.kind ∧ Says t v := by
  rcases h with hnone | ⟨hnone, v, hk, t', ht', hv⟩
  · simp at hnone
  · obtain ⟨ht, hrest⟩ : t = t' ∧ entries.filter (·.1 == field.name) = [] := by
      simpa using ht'
    exact ⟨hnone, hrest, v, hk, ht ▸ hv⟩

/-- Members that fit all fields are collected to their end. -/
theorem exists_collect? (hn : (fields.map Field.name).Nodup)
    (h : ∀ field ∈ fields, Fits found entries field) :
    ∃ all, collect? fields found entries = some all := by
  induction entries generalizing found with
  | nil => exact ⟨found, rfl⟩
  | cons m entries ih =>
    obtain ⟨name, t⟩ := m
    by_cases hknown : ∃ field ∈ fields, field.name = name
    · obtain ⟨field, hf, rfl⟩ := hknown
      obtain ⟨hnone, hfirst, v, hk, ht⟩ := (h field hf).of_cons_self
      have htake := take?_of_known hn hf hnone ht hk
      have hfits : ∀ field' ∈ fields, Fits (found ++ [(field.name, v)]) entries field' := by
        intro field' hf'
        by_cases hname : field'.name = field.name
        · exact .inl (hname ▸ hfirst)
        · exact (h field' hf').of_cons_of_ne htake hname
      obtain ⟨all, hall⟩ := ih hfits
      exact ⟨all, by simpa [collect?, htake] using hall⟩
    · have hunknown : ∀ field ∈ fields, field.name ≠ name := by simpa using hknown
      have htake : take? fields found (name, t) = some found := take?_of_unknown hunknown
      obtain ⟨all, hall⟩ := ih fun field hf => (h field hf).of_cons_of_ne htake (hunknown field hf)
      exact ⟨all, by simpa [collect?, htake] using hall⟩

end

end PhraseArithmetic.Wire
