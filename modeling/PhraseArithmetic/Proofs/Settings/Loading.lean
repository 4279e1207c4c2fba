import PhraseArithmetic.Proofs.Settings.Defaulting

/-!
# Which files are loaded

A file is loaded if it is the text of a document in which each setting has a value of its kind or is
left out, and then it gives exactly the chosen settings. Of any other file nothing is taken. What it
is refused for is told by whether it could be read as a text.
-/
namespace PhraseArithmetic
namespace Settings
open Toml (Entries Value)

section
variable {es : Entries} {s : Settings}

theorem eq_text_of_text? {v : Value} {t : String} (h : text? v = some t) : v = .text t := by
  cases v <;> simp [text?] at h
  rw [h]

theorem eq_count_of_count? {v : Value} {n : Nat} (h : count? v = some n) : v = count n := by
  cases v <;> simp [count?] at h
  obtain ⟨hnonneg, rfl⟩ := h
  rw [count, Int.toNat_of_nonneg hnonneg]

theorem exists_of_field_eq {α : Type} {key : String} {read : Value → Option α} {write : α → Value}
    (hread : ∀ {v x}, read v = some x → v = write x) {default x : α}
    (h : field es key read default = some x) :
    ∃ chosen : Option α, es.lookup key = chosen.map write ∧ chosen.getD default = x := by
  rw [field] at h
  cases hkey : es.lookup key with
  | none =>
    rw [hkey] at h
    exact ⟨none, rfl, Option.some.inj h⟩
  | some v =>
    rw [hkey] at h
    exact ⟨some x, by rw [hread h]; rfl, rfl⟩

/-- Entries that are read as settings hold a choice of them. -/
theorem exists_holds_of_ofEntries? (h : ofEntries? es = some s) :
    ∃ c : Choices, Holds c es ∧ c.settings = s := by
  simp only [ofEntries?, Option.bind_eq_bind, Option.bind_eq_some_iff, Option.some.injEq] at h
  obtain ⟨server, hserver, logging, hlogging, rfl⟩ := h
  have hreadServer : field es "server" server? .default =
      ((es.lookup "server").elim (some []) (group? (Group.keys .server))).bind serverOf? :=
    field_group .server es (fun _ => rfl) rfl
  have hreadLogging : field es "logging" logging? .default =
      ((es.lookup "logging").elim (some []) (group? (Group.keys .logging))).bind loggingOf? :=
    field_group .logging es (fun _ => rfl) rfl
  rw [hreadServer] at hserver
  rw [hreadLogging] at hlogging
  obtain ⟨inner, hinner, hserver⟩ := Option.bind_eq_some_iff.1 hserver
  obtain ⟨inner', hinner', hlogging⟩ := Option.bind_eq_some_iff.1 hlogging
  simp only [serverOf?, Option.bind_eq_bind, Option.bind_eq_some_iff, Option.some.injEq] at hserver
  simp only [loggingOf?, Option.bind_eq_bind, Option.bind_eq_some_iff, Option.some.injEq]
    at hlogging
  obtain ⟨_, haddr, _, htimeout, _, hbytes, rfl⟩ := hserver
  obtain ⟨_, hlevel, rfl⟩ := hlogging
  obtain ⟨addr, lookup_addr, rfl⟩ := exists_of_field_eq eq_text_of_text? haddr
  obtain ⟨timeout, lookup_timeout, rfl⟩ := exists_of_field_eq eq_count_of_count? htimeout
  obtain ⟨bytes, lookup_bytes, rfl⟩ := exists_of_field_eq eq_count_of_count? hbytes
  obtain ⟨level, lookup_level, rfl⟩ := exists_of_field_eq eq_text_of_text? hlevel
  refine ⟨⟨addr, timeout, bytes, level⟩, fun g => ?_, rfl⟩
  cases g with
  | server =>
    refine ⟨inner, hinner, ?_⟩
    simp [Choices.fields, Group.keys, Choices.values, lookup_addr, lookup_timeout, lookup_bytes]
  | logging =>
    refine ⟨inner', hinner', ?_⟩
    simp [Choices.fields, Group.keys, Choices.values, lookup_level]

end

/-- The text is a document in which the settings have the chosen values and no others. -/
def Chooses (text : String) (c : Choices) : Prop :=
  ∃ es, Toml.document? text.toList = some es ∧ Holds c es

theorem parse?_eq_some_iff {text : String} {s : Settings} :
    parse? text = some s ↔ ∃ c, Chooses text c ∧ c.settings = s := by
  rw [parse?, Option.bind_eq_some_iff]
  constructor
  · rintro ⟨es, hes, h⟩
    obtain ⟨c, hc, hs⟩ := exists_holds_of_ofEntries? h
    exact ⟨c, ⟨es, hes, hc⟩, hs⟩
  · rintro ⟨c, ⟨es, hes, hc⟩, rfl⟩
    exact ⟨es, hes, hc.ofEntries?_eq⟩

theorem parse?_eq_none_iff {text : String} : parse? text = none ↔ ∀ c, ¬Chooses text c := by
  rw [Option.eq_none_iff_forall_ne_some]
  constructor
  · intro h c hc
    exact h c.settings (parse?_eq_some_iff.2 ⟨c, hc, rfl⟩)
  · intro h s hs
    obtain ⟨c, hc, -⟩ := parse?_eq_some_iff.1 hs
    exact h c hc

/-- Every value among the fields of a choice is that of a setting. -/
theorem Choices.exists_setting {c : Choices} {g : Group} {key : String} {w : Value}
    (h : (key, some w) ∈ c.fields g) :
    ∃ s : Setting, s.group = g ∧ s.key = key ∧ s.value = w := by
  cases g with
  | server =>
    simp only [fields, Group.keys, values, List.zip_cons_cons, List.zip_nil_right, List.mem_cons,
      List.not_mem_nil, or_false, Prod.mk.injEq] at h
    obtain ⟨rfl, h⟩ | ⟨rfl, h⟩ | ⟨rfl, h⟩ := h
    · obtain ⟨address, -, rfl⟩ := Option.map_eq_some_iff.1 h.symm
      exact ⟨.listenAddr address, rfl, rfl, rfl⟩
    · obtain ⟨n, -, rfl⟩ := Option.map_eq_some_iff.1 h.symm
      exact ⟨.requestTimeoutSecs n, rfl, rfl, rfl⟩
    · obtain ⟨n, -, rfl⟩ := Option.map_eq_some_iff.1 h.symm
      exact ⟨.maxBodyBytes n, rfl, rfl, rfl⟩
  | logging =>
    simp only [fields, Group.keys, values, List.zip_cons_cons, List.zip_nil_right, List.mem_cons,
      List.not_mem_nil, or_false, Prod.mk.injEq] at h
    obtain ⟨rfl, h⟩ := h
    obtain ⟨directives, -, rfl⟩ := Option.map_eq_some_iff.1 h.symm
    exact ⟨.level directives, rfl, rfl, rfl⟩

theorem Choices.exists_mem_fields (c : Choices) {g : Group} {key : String} (hkey : key ∈ g.keys) :
    ∃ chosen, (key, chosen) ∈ c.fields g := by
  have hlength : g.keys.length = (c.values g).length := by cases g <;> rfl
  obtain ⟨i, hi, rfl⟩ := List.getElem_of_mem hkey
  have hzip : i < (c.fields g).length := by simp only [fields, List.length_zip]; omega
  refine ⟨(c.values g)[i], ?_⟩
  rw [← List.getElem_zip (h := hzip)]
  exact List.getElem_mem hzip

/-- The text is a document in which a key of a group has a value that no setting of that key has. -/
def HasWrongValue (text : String) : Prop :=
  ∃ (es inner : Entries) (g : Group) (v w : Value) (key : String),
    Toml.document? text.toList = some es ∧ es.lookup g.name = some v ∧
      group? g.keys v = some inner ∧ key ∈ g.keys ∧ inner.lookup key = some w ∧
        ∀ s : Setting, s.group = g → s.key = key → s.value ≠ w

/-- One wrong value is enough to refuse a document. -/
theorem HasWrongValue.not_chooses {text : String} (h : HasWrongValue text) (c : Choices) :
    ¬Chooses text c := by
  obtain ⟨es, inner, g, v, w, key, hes, hv, hinner, hkey, hw, hwrong⟩ := h
  rintro ⟨es', hes', hc⟩
  obtain rfl := Option.some.inj (hes.symm.trans hes')
  obtain ⟨inner', hinner', hfields⟩ := hc g
  rw [hv] at hinner'
  obtain rfl : inner = inner' := Option.some.inj (hinner.symm.trans hinner')
  obtain ⟨chosen, hchosen⟩ := c.exists_mem_fields hkey
  obtain rfl : chosen = some w := (hfields _ hchosen).symm.trans hw
  obtain ⟨s, hgroup, hskey, hvalue⟩ := Choices.exists_setting hchosen
  exact hwrong s hgroup hskey hvalue

/-- Settings with a negative number, and a level that would switch the log off. -/
def negativeText : String :=
  "[server]\nlisten_addr = 'a:1'\nmax_body_bytes = -1\n[logging]\nlevel = 'off'"

theorem hasWrongValue_negativeText : HasWrongValue negativeText := by
  refine ⟨[("server", .table .header [("listen_addr", .text "a:1"), ("max_body_bytes",
      .integer (-1))]), ("logging", .table .header [("level", .text "off")])],
    [("listen_addr", .text "a:1"), ("max_body_bytes", .integer (-1))], .server, _,
    .integer (-1), "max_body_bytes", by rfl, by rfl, by rfl, by simp [Group.keys], by rfl, ?_⟩
  intro s hs hk
  cases s with
  | listenAddr | requestTimeoutSecs | level => simp [Setting.key] at hk
  | maxBodyBytes => simp [Setting.value, count]

/-! ### What a file is refused for -/

theorem fromUTF8?_eq_some_iff {octets : ByteArray} {text : String} :
    String.fromUTF8? octets = some text ↔ text.toUTF8 = octets := by
  rw [String.fromUTF8?]
  split
  · next h =>
    rw [Option.some.injEq]
    constructor
    · rintro rfl
      rfl
    · rintro rfl
      rfl
  · next h =>
    refine iff_of_false (by simp) ?_
    rintro rfl
    exact h text.isValidUTF8

/-- The file could not be read, or its octets are those of no text. -/
def IsIllegible (file : Except ReadFault ByteArray) : Prop :=
  (∃ fault, file = .error fault) ∨ ∃ octets, file = .ok octets ∧
    ∀ text : String, text.toUTF8 ≠ octets

theorem isIllegible_or_exists_text (file : Except ReadFault ByteArray) :
    IsIllegible file ∨ ∃ text : String, file = .ok text.toUTF8 := by
  obtain fault | octets := file
  · exact Or.inl (Or.inl ⟨fault, rfl⟩)
  · by_cases h : ∃ text : String, text.toUTF8 = octets
    · obtain ⟨text, rfl⟩ := h
      exact Or.inr ⟨text, rfl⟩
    · exact Or.inl (Or.inr ⟨octets, rfl, not_exists.1 h⟩)

end Settings

namespace LoadFault
variable {f : LoadFault} {path : String}

theorem reading_ne_parsing : s!"reading {path}" ≠ s!"parsing {path}" := by
  intro h
  have hverb := congrArg String.toList h
  simp only [String.toList_append, List.append_cancel_right_eq] at hverb
  exact absurd hverb (by decide)

theorem activity_eq_reading_iff : f.activity path = s!"reading {path}" ↔ f ≠ .unacceptable := by
  cases f with
  | unreadable | notText => simp [activity]
  | unacceptable => exact iff_of_false reading_ne_parsing.symm (by simp)

theorem activity_eq_parsing_iff : f.activity path = s!"parsing {path}" ↔ f = .unacceptable := by
  cases f with
  | unreadable | notText => exact iff_of_false reading_ne_parsing (by simp)
  | unacceptable => simp [activity]

end LoadFault

namespace Settings
variable {file : Except ReadFault ByteArray}

theorem read_illegible (h : IsIllegible file) : ∃ f, read file = .error f ∧ f ≠ .unacceptable := by
  rcases h with ⟨fault, rfl⟩ | ⟨octets, rfl, hnone⟩
  · exact ⟨.unreadable fault, rfl, by simp⟩
  · have hutf8 : String.fromUTF8? octets = none :=
      Option.eq_none_iff_forall_ne_some.2 fun text h => hnone text (fromUTF8?_eq_some_iff.1 h)
    refine ⟨.notText, ?_, by simp⟩
    rw [read, hutf8]

theorem read_refused {text : String} (h : ∀ c, ¬Chooses text c) :
    read (.ok text.toUTF8) = .error .unacceptable := by
  have hutf8 : String.fromUTF8? text.toUTF8 = some text := fromUTF8?_eq_some_iff.2 rfl
  rw [read, hutf8]
  simp only [parse?_eq_none_iff.2 h]

theorem read_chosen {text : String} {c : Choices} (h : Chooses text c) :
    read (.ok text.toUTF8) = .ok c.settings :=
  read_toUTF8 (parse?_eq_some_iff.2 ⟨c, h, rfl⟩)

/-- A file is illegible, or a text that is refused, or a text that chooses settings. -/
theorem read_cases (file : Except ReadFault ByteArray) :
    (IsIllegible file ∧ ∃ f, read file = .error f ∧ f ≠ .unacceptable) ∨
      (∃ text, file = .ok text.toUTF8 ∧ (∀ c, ¬Chooses text c) ∧
        read file = .error .unacceptable) ∨
      ∃ text c, file = .ok text.toUTF8 ∧ Chooses text c ∧ read file = .ok c.settings := by
  rcases isIllegible_or_exists_text file with h | ⟨text, rfl⟩
  · exact .inl ⟨h, read_illegible h⟩
  · by_cases h : ∃ c, Chooses text c
    · obtain ⟨c, hc⟩ := h
      exact .inr (.inr ⟨text, c, rfl, hc, read_chosen hc⟩)
    · exact .inr (.inl ⟨text, rfl, not_exists.1 h, read_refused (not_exists.1 h)⟩)

theorem read_eq_ok_iff {s : Settings} :
    read file = .ok s ↔ ∃ text c, file = .ok text.toUTF8 ∧ Chooses text c ∧ c.settings = s := by
  constructor
  · intro hs
    rcases read_cases file with ⟨-, f, hf, -⟩ | ⟨text, -, -, hf⟩ | ⟨text, c, hfile, hc, hread⟩
    · cases hf.symm.trans hs
    · cases hf.symm.trans hs
    · exact ⟨text, c, hfile, hc, Except.ok.inj (hread.symm.trans hs)⟩
  · rintro ⟨text, c, rfl, hc, rfl⟩
    exact read_chosen hc

theorem read_fault_reading_iff :
    (∃ f, read file = .error f ∧ ∀ path, f.activity path = s!"reading {path}") ↔
      IsIllegible file := by
  simp only [LoadFault.activity_eq_reading_iff, forall_const]
  constructor
  · rintro ⟨f, hf, hne⟩
    rcases read_cases file with ⟨h, -⟩ | ⟨text, -, -, hread⟩ | ⟨text, c, -, -, hread⟩
    · exact h
    · exact absurd (Except.error.inj (hf.symm.trans hread)) hne
    · cases hread.symm.trans hf
  · exact read_illegible

theorem read_fault_parsing_iff :
    (∃ f, read file = .error f ∧ ∀ path, f.activity path = s!"parsing {path}") ↔
      ∃ text, file = .ok text.toUTF8 ∧ ∀ c, ¬Chooses text c := by
  simp only [LoadFault.activity_eq_parsing_iff, forall_const]
  constructor
  · rintro ⟨f, hf, rfl⟩
    rcases read_cases file with
      ⟨-, f, hf', hne⟩ | ⟨text, hfile, hrefused, -⟩ | ⟨text, c, -, -, hread⟩
    · exact absurd (Except.error.inj (hf'.symm.trans hf)) hne
    · exact ⟨text, hfile, hrefused⟩
    · cases hread.symm.trans hf
  · rintro ⟨text, rfl, h⟩
    exact ⟨.unacceptable, read_refused h, rfl⟩

/-- All settings of a file are used or none of them, and the two reasons to use none are told
apart. -/
structure LoadsWhole (file : Except ReadFault ByteArray) : Prop where
  faultless_iff : (load file).2 = none ↔ ∃ s, read file = .ok s
  loaded : ∀ s, read file = .ok s → load file = (s, none)
  refused : ∀ f, read file = .error f →
    load file = (⟨⟨"0.0.0.0:8080", 10, 65536⟩, ⟨"info"⟩⟩, some f)
  loaded_iff : ∀ s, read file = .ok s ↔
    ∃ text c, file = .ok text.toUTF8 ∧ Chooses text c ∧ c.settings = s
  wrong : ∀ text, file = .ok text.toUTF8 → HasWrongValue text →
    load file = (⟨⟨"0.0.0.0:8080", 10, 65536⟩, ⟨"info"⟩⟩, some .unacceptable)
  reading_iff : (∃ f, read file = .error f ∧ ∀ path, f.activity path = s!"reading {path}") ↔
    (∃ fault, file = .error fault) ∨
      ∃ octets, file = .ok octets ∧ ∀ text : String, text.toUTF8 ≠ octets
  parsing_iff : (∃ f, read file = .error f ∧ ∀ path, f.activity path = s!"parsing {path}") ↔
    ∃ text, file = .ok text.toUTF8 ∧ ∀ c, ¬Chooses text c

theorem load_loaded {s : Settings} (h : read file = .ok s) : load file = (s, none) := by
  rw [load, h]

theorem load_refused {f : LoadFault} (h : read file = .error f) :
    load file = (.default, some f) := by rw [load, h]

theorem loadsWhole (file : Except ReadFault ByteArray) : LoadsWhole file where
  faultless_iff := by
    rw [load]
    cases read file <;> simp
  loaded _ := load_loaded
  refused _ := load_refused
  loaded_iff _ := read_eq_ok_iff
  wrong := by
    rintro text rfl h
    exact load_refused (read_refused h.not_chooses)
  reading_iff := read_fault_reading_iff
  parsing_iff := read_fault_parsing_iff

end Settings
end PhraseArithmetic
