import PhraseArithmetic.Proofs.Toml.Insertion
import PhraseArithmetic.Settings

/-!
# Choices of settings

For each of the four settings a file may have a value or may leave it out. The entries of a
document hold a choice when each group, as a table, as an array or not there at all, has exactly
the chosen values under its keys.
-/
namespace PhraseArithmetic.Settings
open Toml (Entries Value Statement)

inductive Group where
  | server
  | logging
  deriving DecidableEq

def Group.name : Group → String
  | server => "server"
  | logging => "logging"

/-- The keys of a group in the order of their declaration. -/
def Group.keys : Group → List String
  | server => ["listen_addr", "request_timeout_secs", "max_body_bytes"]
  | logging => ["level"]

def count (n : Nat) : Value := .integer n

/-- One setting with a value. -/
inductive Setting where
  | listenAddr (address : String)
  | requestTimeoutSecs (n : Nat)
  | maxBodyBytes (n : Nat)
  | level (directives : String)

namespace Setting

def group : Setting → Group
  | listenAddr _ | requestTimeoutSecs _ | maxBodyBytes _ => .server
  | level _ => .logging

def key : Setting → String
  | listenAddr _ => "listen_addr"
  | requestTimeoutSecs _ => "request_timeout_secs"
  | maxBodyBytes _ => "max_body_bytes"
  | level _ => "level"

def value : Setting → Value
  | listenAddr s | level s => .text s
  | requestTimeoutSecs n | maxBodyBytes n => count n

end Setting

/-- For each setting its value, or nothing where it is left out. -/
structure Choices where
  listenAddr : Option String
  requestTimeoutSecs : Option Nat
  maxBodyBytes : Option Nat
  level : Option String

namespace Choices

/-- Everything is left out. -/
def nothing : Choices := ⟨none, none, none, none⟩

/-- The settings that are chosen, and the default ones in place of those that are left out. -/
def settings (c : Choices) : Settings :=
  ⟨⟨c.listenAddr.getD "0.0.0.0:8080", c.requestTimeoutSecs.getD 10, c.maxBodyBytes.getD 65536⟩,
    ⟨c.level.getD "info"⟩⟩

/-- The choices for the keys of a group, in their order. -/
def values (c : Choices) : Group → List (Option Value)
  | .server => [c.listenAddr.map .text, c.requestTimeoutSecs.map count, c.maxBodyBytes.map count]
  | .logging => [c.level.map .text]

/-- The choice with one setting more. -/
def set (c : Choices) : Setting → Choices
  | .listenAddr s => { c with listenAddr := some s }
  | .requestTimeoutSecs n => { c with requestTimeoutSecs := some n }
  | .maxBodyBytes n => { c with maxBodyBytes := some n }
  | .level s => { c with level := some s }

/-- The setting is left out, whatever value it would have. -/
def LeavesOut (c : Choices) : Setting → Prop
  | .listenAddr _ => c.listenAddr = none
  | .requestTimeoutSecs _ => c.requestTimeoutSecs = none
  | .maxBodyBytes _ => c.maxBodyBytes = none
  | .level _ => c.level = none

/-- The choice without the settings of a group. -/
def without (c : Choices) : Group → Choices
  | .server => { c with listenAddr := none, requestTimeoutSecs := none, maxBodyBytes := none }
  | .logging => { c with level := none }

def fields (c : Choices) (g : Group) : List (String × Option Value) := g.keys.zip (c.values g)

section
variable (c : Choices)

/-- One setting more gives its key its value and leaves the other keys of its group. -/
theorem mem_fields_set {c : Choices} {s : Setting} {p : String × Option Value}
    (hp : p ∈ (c.set s).fields s.group) :
    p = (s.key, some s.value) ∨ p ∈ c.fields s.group ∧ p.1 ≠ s.key := by
  cases s with
  | listenAddr =>
    simp [fields, values, set, Setting.group, Group.keys] at hp ⊢
    rcases hp with rfl | rfl | rfl <;> simp [Setting.key, Setting.value]
  | requestTimeoutSecs =>
    simp [fields, values, set, Setting.group, Group.keys] at hp ⊢
    rcases hp with rfl | rfl | rfl <;> simp [Setting.key, Setting.value]
  | maxBodyBytes =>
    simp [fields, values, set, Setting.group, Group.keys] at hp ⊢
    rcases hp with rfl | rfl | rfl <;> simp [Setting.key, Setting.value]
  | level =>
    simp [fields, values, set, Setting.group, Group.keys] at hp ⊢
    simp [hp, Setting.key, Setting.value]

theorem values_set_of_ne {s : Setting} {g : Group} (hg : g ≠ s.group) :
    (c.set s).values g = c.values g := by
  cases g with
  | server =>
    cases s with
    | level => rfl
    | listenAddr => exact absurd rfl hg
    | requestTimeoutSecs => exact absurd rfl hg
    | maxBodyBytes => exact absurd rfl hg
  | logging =>
    cases s with
    | level => exact absurd rfl hg
    | listenAddr => rfl
    | requestTimeoutSecs => rfl
    | maxBodyBytes => rfl

theorem values_without_of_ne {g g' : Group} (hg : g ≠ g') :
    (c.without g').values g = c.values g := by
  cases g with
  | server =>
    cases g' with
    | server => exact absurd rfl hg
    | logging => rfl
  | logging =>
    cases g' with
    | server => rfl
    | logging => exact absurd rfl hg

theorem mem_fields_of_leavesOut {c : Choices} {s : Setting} (h : c.LeavesOut s) :
    (s.key, none) ∈ c.fields s.group := by
  cases s <;> simp_all [LeavesOut, fields, values, Group.keys, Setting.group, Setting.key]

end
end Choices

/-- What a root holds for a group gives the chosen values; nothing gives none. -/
def Gives (g : Group) (c : Choices) (held : Option Value) : Prop :=
  ∃ inner, held.elim (some []) (group? g.keys) = some inner ∧
    ∀ p ∈ c.fields g, inner.lookup p.1 = p.2

def Holds (c : Choices) (es : Entries) : Prop := ∀ g : Group, Gives g c (es.lookup g.name)

theorem field_eq {α : Type} {es : Entries} {key : String} {read : Value → Option α}
    {write : α → Value} {chosen : Option α} (hread : ∀ x, read (write x) = some x)
    (h : es.lookup key = chosen.map write) (default : α) :
    field es key read default = some (chosen.getD default) := by
  rw [field, h]
  cases chosen with
  | none => rfl
  | some x => exact hread x

theorem text?_text (s : String) : text? (.text s) = some s := rfl

theorem count?_count (n : Nat) : count? (count n) = some n := by simp [count?, count]

/-- The server settings of the entries of their group. -/
def serverOf? (es : Entries) : Option ServerSettings := do
  some ⟨← field es "listen_addr" text? ServerSettings.default.listenAddr,
    ← field es "request_timeout_secs" count? ServerSettings.default.requestTimeoutSecs,
    ← field es "max_body_bytes" count? ServerSettings.default.maxBodyBytes⟩

def loggingOf? (es : Entries) : Option LoggingSettings := do
  some ⟨← field es "level" text? LoggingSettings.default.level⟩

/-- A group that is not there is read like an empty one. -/
theorem field_group {α : Type} (g : Group) (es : Entries) {read : Value → Option α}
    {readEntries : Entries → Option α} {default : α}
    (hread : ∀ v, read v = (group? g.keys v).bind readEntries)
    (hempty : readEntries [] = some default) :
    field es g.name read default =
      ((es.lookup g.name).elim (some []) (group? g.keys)).bind readEntries := by
  rw [field]
  cases es.lookup g.name with
  | none => exact hempty.symm
  | some v => exact hread v

/-- Entries that hold a choice are read as its settings. -/
theorem Holds.ofEntries?_eq {c : Choices} {es : Entries} (h : Holds c es) :
    ofEntries? es = some c.settings := by
  have hserver : field es "server" server? .default = some c.settings.server := by
    obtain ⟨inner, hinner, hfields⟩ := h .server
    have hread : field es "server" server? .default = (some inner).bind serverOf? :=
      hinner ▸ field_group .server es (fun _ => rfl) rfl
    simp only [Choices.fields, Group.keys, Choices.values, List.zip_cons_cons, List.zip_nil_right,
      List.forall_mem_cons] at hfields
    obtain ⟨haddr, htimeout, hbytes, -⟩ := hfields
    rw [hread, Option.bind_some, serverOf?, field_eq text?_text haddr,
      field_eq count?_count htimeout, field_eq count?_count hbytes]
    rfl
  have hlogging : field es "logging" logging? .default = some c.settings.logging := by
    obtain ⟨inner, hinner, hfields⟩ := h .logging
    have hread : field es "logging" logging? .default = (some inner).bind loggingOf? :=
      hinner ▸ field_group .logging es (fun _ => rfl) rfl
    simp only [Choices.fields, Group.keys, Choices.values, List.zip_cons_cons, List.zip_nil_right,
      List.forall_mem_cons] at hfields
    rw [hread, Option.bind_some, loggingOf?, field_eq text?_text hfields.1]
    rfl
  rw [ofEntries?, hserver, hlogging]
  rfl

/-! ### One more setting -/

theorem Group.name_injective {g g' : Group} (h : g.name = g'.name) : g = g' := by
  cases g with
  | server =>
    cases g' with
    | server => rfl
    | logging => exact absurd h (by decide)
  | logging =>
    cases g' with
    | server => exact absurd h (by decide)
    | logging => rfl

theorem Group.nodup_keys (g : Group) : g.keys.Nodup := by cases g <;> decide

section
variable {c c' : Choices} {g : Group} {s : Setting} {es es' : Entries} {held : Option Value}

theorem Gives.congr (h : Gives g c held) (hvalues : c'.values g = c.values g) :
    Gives g c' held := by
  obtain ⟨inner, hinner, hfields⟩ := h
  exact ⟨inner, hinner, by rwa [Choices.fields, hvalues]⟩

theorem Holds.lookup_of_header (h : Holds c es) {inner : Entries}
    (hinner : es.lookup g.name = some (.table .header inner)) :
    ∀ p ∈ c.fields g, inner.lookup p.1 = p.2 := by
  obtain ⟨inner', hinner', hfields⟩ := h g
  rw [hinner] at hinner'
  obtain rfl : inner = inner' := Option.some.inj hinner'
  exact hfields

theorem Holds.lacksUnder (h : Holds c es) (hs : c.LeavesOut s) :
    Entries.LacksUnder s.group.name s.key es := fun _ hinner =>
  h.lookup_of_header hinner _ (Choices.mem_fields_of_leavesOut hs)

/-- One more key below the header of a group is one more setting chosen. -/
theorem Holds.set (h : Holds c es)
    (hextends : Entries.ExtendsUnder s.group.name s.key s.value es es') : Holds (c.set s) es' := by
  intro g
  by_cases hg : g = s.group
  · subst hg
    obtain ⟨inner, inner', hinner, hinner', hone⟩ := hextends.exists_inner
    refine ⟨inner', by rw [hinner']; rfl, fun p hp => ?_⟩
    rw [hone.lookup_eq]
    rcases Choices.mem_fields_set hp with rfl | ⟨hp, hkey⟩
    · rw [if_pos rfl]
    · rw [if_neg hkey, h.lookup_of_header hinner p hp]
  · rw [hextends.other g.name fun hname => hg (Group.name_injective hname)]
    exact (h g).congr (Choices.values_set_of_ne c hg)

/-- The values of an array are those of the first keys, and the other keys have none. -/
theorem lookup_zip {keys : List String} (hkeys : keys.Nodup) {vs : List Value} {m : Nat} :
    ∀ p ∈ keys.zip (vs.map some ++ List.replicate m none), (keys.zip vs).lookup p.1 = p.2 := by
  induction vs generalizing keys with
  | nil =>
    rintro ⟨key, v⟩ hp
    obtain rfl : v = none := List.eq_of_mem_replicate (List.of_mem_zip hp).2
    rw [List.zip_nil_right]
    rfl
  | cons v vs ih =>
    cases keys with
    | nil => simp
    | cons key keys =>
      obtain ⟨hkey, hkeys⟩ := List.nodup_cons.1 hkeys
      intro p hp
      rw [List.zip_cons_cons, Entries.lookup_cons_eq]
      rcases List.mem_cons.1 hp with rfl | hp
      · rw [if_pos rfl]
      · have hne : p.1 ≠ key := fun heq => hkey (heq ▸ (List.of_mem_zip hp).1)
        rw [if_neg hne, ih hkeys p hp]

/-- An array in place of a group chooses its values for the first keys of the group. -/
theorem Holds.array (h : Holds (c.without g) es) {vs : List Value} {m : Nat}
    (hvs : c.values g = vs.map some ++ List.replicate m none)
    (hextends : Entries.Extends g.name (.array vs) es es') : Holds c es' := by
  intro g'
  by_cases hg : g' = g
  · subst hg
    refine ⟨g'.keys.zip vs, ?_, ?_⟩
    · rw [hextends.lookup_eq, if_pos rfl]
      rfl
    · rw [Choices.fields, hvs]
      exact lookup_zip g'.nodup_keys
  · rw [hextends.lookup_eq, if_neg fun hname => hg (Group.name_injective hname)]
    exact (h g').congr (Choices.values_without_of_ne c hg).symm

end

end PhraseArithmetic.Settings
