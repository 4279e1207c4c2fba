import PhraseArithmetic.Proofs.Settings.Choices
import PhraseArithmetic.Proofs.Toml.SpelledLines

/-!
# Defaults field by field

A file gives each setting that it has its value, and each that it leaves out its default. The
settings may stand below the headers of their groups in any order, or in an array in place of a
group, and unknown keys and tables may stand anywhere around them.
-/
namespace PhraseArithmetic.Settings
open Toml

/-- The statements of a file set exactly the chosen settings: they are those of a document that
sets none of them, one more assignment below a group's header for each setting, and one more
assignment above all headers for a group that is given as an array of its first settings. -/
inductive Sets : List Statement → Choices → Prop where
  | nothing {ss : List Statement} {es : Entries} (hes : (outline ss).entries? = some es)
      (hgroups : ∀ g : Group, es.lookup g.name = none ∨ ∃ origin inner,
        es.lookup g.name = some (.table origin inner) ∧ ∀ key ∈ g.keys, inner.lookup key = none) :
      Sets ss .nothing
  | setting {front back : List Statement} {body : List (List String × Value)} {c : Choices}
      (s : Setting) (hs : c.LeavesOut s)
      (h : Sets (front ++ .table [s.group.name] :: (body.map .ofAssignment ++ back)) c) :
      Sets (front ++ .table [s.group.name] ::
        (body.map .ofAssignment ++ .assign [s.key] s.value :: back)) (c.set s)
  | array {back : List Statement} {body : List (List String × Value)} {c : Choices}
      {es : Entries} {vs : List Value} {m : Nat} (g : Group)
      (hes : (outline (body.map .ofAssignment ++ back)).entries? = some es)
      (hg : es.lookup g.name = none) (hvs : c.values g = vs.map some ++ List.replicate m none)
      (h : Sets (body.map .ofAssignment ++ back) (c.without g)) :
      Sets (body.map .ofAssignment ++ .assign [g.name] (.array vs) :: back) c

theorem Sets.exists_holds {ss : List Statement} {c : Choices} (h : Sets ss c) :
    ∃ es, (outline ss).entries? = some es ∧ Holds c es := by
  induction h with
  | @nothing ss es hes hgroups =>
    refine ⟨es, hes, fun g => ?_⟩
    have hnone : ∀ p ∈ Choices.nothing.fields g, p.2 = none := by
      cases g <;> simp [Choices.fields, Choices.nothing, Choices.values, Group.keys]
    rcases hgroups g with habsent | ⟨origin, inner, hinner, hkeys⟩
    · exact ⟨[], by rw [habsent]; rfl, fun p hp => (hnone p hp).symm⟩
    · refine ⟨inner, by rw [hinner]; rfl, fun p hp => ?_⟩
      rw [hkeys p.1 (List.of_mem_zip hp).1, hnone p hp]
  | setting s hs _ ih =>
    obtain ⟨es, hes, hholds⟩ := ih
    obtain ⟨es', hes', hextends⟩ := exists_entries?_insert hes (hholds.lacksUnder hs) s.value
    exact ⟨es', hes', hholds.set hextends⟩
  | array g hes hg hvs _ ih =>
    obtain ⟨es, hes', hholds⟩ := ih
    obtain rfl := Option.some.inj (hes.symm.trans hes')
    obtain ⟨es', hentries, hextends⟩ := exists_entries?_insert_top hes hg (.array _)
    exact ⟨es', hentries, hholds.array hvs hextends⟩

theorem read_toUTF8 {text : String} {settings : Settings} (h : parse? text = some settings) :
    read (.ok text.toUTF8) = .ok settings := by
  have hutf8 : String.fromUTF8? text.toUTF8 = some text := dif_pos text.isValidUTF8
  rw [read, hutf8]
  simp only [h]

/-! ### Every choice has a file -/

theorem Group.spellsKey_name (g : Group) : SpellsKey g.name.toList g.name := by
  cases g <;> exact spellsKey_of_bare (by decide) (by decide)

theorem Setting.spellsKey_key (s : Setting) : SpellsKey s.key.toList s.key := by
  have hbare : ∀ key ∈ ["listen_addr", "request_timeout_secs", "max_body_bytes", "level"],
      key.toList ≠ [] ∧ key.toList.all isBareKeyChar = true := by decide
  have hmem : s.key ∈ ["listen_addr", "request_timeout_secs", "max_body_bytes", "level"] := by
    cases s <;> simp [Setting.key]
  exact spellsKey_of_bare (hbare s.key hmem).1 (hbare s.key hmem).2

/-- The numbers are ones that an integer of the file's language can be. -/
structure Choices.InRange (c : Choices) : Prop where
  requestTimeoutSecs : ∀ n, c.requestTimeoutSecs = some n → n < integerBound
  maxBodyBytes : ∀ n, c.maxBodyBytes = some n → n < integerBound

theorem Choices.InRange.exists_spellsScalar {c : Choices} (h : c.InRange) {g : Group} {v : Value}
    (hv : some v ∈ c.values g) : ∃ text, SpellsScalar text v := by
  cases g with
  | server =>
    simp only [Choices.values, List.mem_cons, List.not_mem_nil, or_false] at hv
    rcases hv with hv | hv | hv
    · obtain ⟨s, -, rfl⟩ := Option.map_eq_some_iff.1 hv.symm
      exact exists_spellsScalar_text s
    · obtain ⟨n, hn, rfl⟩ := Option.map_eq_some_iff.1 hv.symm
      exact exists_spellsScalar_integer (h.requestTimeoutSecs n hn)
    · obtain ⟨n, hn, rfl⟩ := Option.map_eq_some_iff.1 hv.symm
      exact exists_spellsScalar_integer (h.maxBodyBytes n hn)
  | logging =>
    simp only [Choices.values, List.mem_cons, List.not_mem_nil, or_false] at hv
    obtain ⟨s, -, rfl⟩ := Option.map_eq_some_iff.1 hv.symm
    exact exists_spellsScalar_text s

/-- The statements set the chosen settings, and every one of them has a line. -/
structure SetByLines (ss : List Statement) (c : Choices) : Prop where
  sets : Sets ss c
  hasLine : ∀ s ∈ ss, HasLine s

/-- Some assignments below the header of a group set the chosen settings. -/
def SetBelow (g : Group) (front back : List Statement) (c : Choices) : Prop :=
  ∃ body : List (List String × Value),
    SetByLines (front ++ .table [g.name] :: (body.map .ofAssignment ++ back)) c

section
variable {front back : List Statement} {c : Choices}

theorem SetBelow.set {s : Setting} (h : SetBelow s.group front back c) (hs : c.LeavesOut s)
    (hvalue : ∃ text, SpellsScalar text s.value) : SetBelow s.group front back (c.set s) := by
  obtain ⟨body, hsets, hlines⟩ := h
  refine ⟨body ++ [([s.key], s.value)], ?_, ?_⟩
  · rw [List.map_append, List.append_assoc]
    exact .setting s hs hsets
  · have hline : HasLine (.ofAssignment ([s.key], s.value)) :=
      hasLine_assignment s.spellsKey_key (hvalue.imp fun _ => .scalar)
    grind

/-- The settings of a group can be put below its header one by one. -/
theorem SetByLines.setBelow {g : Group} (hc : c.InRange)
    (h : SetByLines (front ++ .table [g.name] :: back) (c.without g)) :
    SetBelow g front back c := by
  have hnone : SetBelow g front back (c.without g) := ⟨[], h⟩
  obtain ⟨addr, timeout, bytes, level⟩ := c
  cases g with
  | server =>
    have haddr : SetBelow .server front back ⟨addr, none, none, level⟩ := by
      cases addr with
      | none => exact hnone
      | some s => exact hnone.set (s := .listenAddr s) rfl (exists_spellsScalar_text s)
    have htimeout : SetBelow .server front back ⟨addr, timeout, none, level⟩ := by
      cases timeout with
      | none => exact haddr
      | some n =>
        exact haddr.set (s := .requestTimeoutSecs n) rfl
          (exists_spellsScalar_integer (hc.requestTimeoutSecs n rfl))
    cases bytes with
    | none => exact htimeout
    | some n =>
      exact htimeout.set (s := .maxBodyBytes n) rfl
        (exists_spellsScalar_integer (hc.maxBodyBytes n rfl))
  | logging =>
    cases level with
    | none => exact hnone
    | some s => exact hnone.set (s := .level s) rfl (exists_spellsScalar_text s)

end

/-- The headers of both groups set nothing. -/
theorem setByLines_headers :
    SetByLines [.table [Group.server.name], .table [Group.logging.name]] .nothing := by
  have hes : (outline [.table [Group.server.name], .table [Group.logging.name]]).entries? =
      some [("server", .table .header []), ("logging", .table .header [])] := rfl
  refine ⟨.nothing hes fun g => ?_, ?_⟩
  · cases g with
    | server => exact .inr ⟨.header, [], rfl, fun _ _ => rfl⟩
    | logging => exact .inr ⟨.header, [], rfl, fun _ _ => rfl⟩
  · simp [hasLine_header (Group.spellsKey_name _)]

def Group.other : Group → Group
  | server => logging
  | logging => server

theorem Group.ne_other (g : Group) : g ≠ g.other := by cases g <;> decide

/-- An array in place of a group, above the header of the other group. -/
theorem setByLines_array {c : Choices} (hc : c.InRange) {g : Group} {vs : List Value} {m : Nat}
    (hvs : c.values g = vs.map some ++ List.replicate m none) :
    SetByLines [.assign [g.name] (.array vs), .table [g.other.name]] (c.without g.other) := by
  have hes : (outline [.table [g.other.name]]).entries? =
      some [(g.other.name, .table .header [])] := rfl
  have hnothing : (c.without g.other).without g = .nothing := by cases g <;> rfl
  have habsent : List.lookup g.name [(g.other.name, Value.table .header [])] = none := by
    cases g <;> rfl
  have hpresent : List.lookup g.other.name [(g.other.name, Value.table .header [])] =
      some (.table .header []) := by cases g <;> rfl
  have hheader : Sets [.table [g.other.name]] ((c.without g.other).without g) := by
    rw [hnothing]
    refine .nothing hes fun g' => ?_
    by_cases hg : g' = g
    · exact .inl (hg ▸ habsent)
    · have hother : g' = g.other := by cases g <;> cases g' <;> simp_all [Group.other]
      exact .inr ⟨.header, [], hother ▸ hpresent, fun _ _ => rfl⟩
  have hvs' : (c.without g.other).values g = vs.map some ++ List.replicate m none := by
    rw [Choices.values_without_of_ne c g.ne_other, hvs]
  have hsets : Sets (([] : List (List String × Value)).map .ofAssignment ++
      .assign [g.name] (.array vs) :: [.table [g.other.name]]) (c.without g.other) :=
    .array g hes habsent hvs' hheader
  refine ⟨hsets, ?_⟩
  have hspelled : ∀ v ∈ vs, ∃ text, SpellsScalar text v := fun v hv =>
    hc.exists_spellsScalar (g := g) (by rw [hvs]; simp [hv])
  have harray : HasLine (.assign [g.name] (.array vs)) :=
    hasLine_assignment g.spellsKey_name ((exists_spellsElements hspelled).imp' _ fun _ => .array)
  simp [harray, hasLine_header (Group.spellsKey_name _)]

/-- Every choice in range has a file with both groups as tables. -/
theorem exists_tables {c : Choices} (hc : c.InRange) :
    ∃ text ss, SpellsLines text ss ∧ Sets ss c := by
  have hwithout : (c.without .logging).InRange := ⟨hc.requestTimeoutSecs, hc.maxBodyBytes⟩
  have hserver : SetBelow .server [] [.table [Group.logging.name]] (c.without .logging) :=
    SetByLines.setBelow hwithout setByLines_headers
  obtain ⟨body, hserver⟩ := hserver
  have hlogging : SetBelow .logging (.table [Group.server.name] :: body.map .ofAssignment) [] c :=
    SetByLines.setBelow hc hserver
  obtain ⟨body', hsets, hlines⟩ := hlogging
  obtain ⟨text, htext⟩ := exists_spellsLines hlines
  exact ⟨text, _, htext, hsets⟩

/-- Every choice in range has a file with a group as an array, if none of the keys that it leaves
out comes before one that it has. -/
theorem exists_array {c : Choices} (hc : c.InRange) {g : Group} {vs : List Value} {m : Nat}
    (hvs : c.values g = vs.map some ++ List.replicate m none) :
    ∃ text ss, SpellsLines text ss ∧ Sets ss c ∧ .assign [g.name] (.array vs) ∈ ss := by
  have hother : SetBelow g.other [.assign [g.name] (.array vs)] [] c :=
    SetByLines.setBelow hc (setByLines_array hc hvs)
  obtain ⟨body, hsets, hlines⟩ := hother
  obtain ⟨text, htext⟩ := exists_spellsLines hlines
  exact ⟨text, _, htext, hsets, by simp⟩

/-- Field by field, a file gives the configuration its values, and each field that it leaves out
has its default. -/
theorem load_field_by_field :
    (∀ c : Choices, c.InRange →
      (∃ text ss, SpellsLines text ss ∧ Sets ss c) ∧
        ∀ (g : Group) (vs : List Value) (m : Nat),
          c.values g = vs.map some ++ List.replicate m none →
            ∃ text ss, SpellsLines text ss ∧ Sets ss c ∧ .assign [g.name] (.array vs) ∈ ss) ∧
    ∀ (text : List Char) (ss : List Statement) (c : Choices), SpellsLines text ss → Sets ss c →
      ∀ t : String, t.toList = text ∨ t.toList = '\uFEFF' :: text →
        read (.ok t.toUTF8) = .ok c.settings ∧ load (.ok t.toUTF8) = (c.settings, none) := by
  refine ⟨fun c hc => ⟨exists_tables hc, fun g vs m hvs => exists_array hc hvs⟩, ?_⟩
  intro text ss c hspells hsets t ht
  obtain ⟨es, hes, hholds⟩ := hsets.exists_holds
  have hss : statements? t.toList = some ss := by
    rcases ht with ht | ht
    · rw [ht, hspells.statements?_eq.1]
    · rw [ht, hspells.statements?_eq.2]
  have hparse : parse? t = some c.settings := by
    rw [parse?, document?, hss]
    simp only [Option.bind_eq_bind, Option.bind_some, hes, hholds.ofEntries?_eq]
  have hread := read_toUTF8 hparse
  exact ⟨hread, by rw [load, hread]⟩

example : parse? "[logging]\ncolor = 1\nlevel = 'debug' # all\n[server]\nmax_body_bytes = 0x7" =
    some ⟨⟨"0.0.0.0:8080", 10, 7⟩, ⟨"debug"⟩⟩ := by rfl

end PhraseArithmetic.Settings
