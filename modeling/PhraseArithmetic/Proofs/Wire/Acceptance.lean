import PhraseArithmetic.Proofs.Json.Cutting
import PhraseArithmetic.Proofs.Json.Finite
import PhraseArithmetic.Proofs.Wire.Occurrences
import PhraseArithmetic.Wire.Message

/-!
# What is accepted as a message

An object is a message when each field of the message occurs in it once, with a value of the
field's kind. Members of other names, whatever their values are and however often they come, and the
order of the members make no difference. Any other object is a mismatch.
-/
namespace PhraseArithmetic.Wire
open Json (Lexeme Tree Spells)

/-- A message can be made of members exactly when they hold a value for each of its fields, and then
these values are the members of the message. -/
structure Format.IsGathered {α : Type} (f : Format α) : Prop extends f.IsLawful where
  ofMembers?_eq_some_iff : ∀ ms message, f.ofMembers? ms = some message ↔
    ∀ m ∈ f.members message, ms.lookup m.1 = some m.2
  exists_ofMembers? : ∀ ms : Members, (∀ field ∈ f.fields, ∃ v : Value, v.kind = field.kind ∧
    ms.lookup field.name = some v) → ∃ message, f.ofMembers? ms = some message

theorem Members.text?_eq_some_iff {ms : Members} {name s : String} :
    Members.text? ms name = some s ↔ ms.lookup name = some (.text s) := by
  rw [Members.text?]
  split
  · next h => simp [h]
  · next h => simpa using h s

theorem Members.count?_eq_some_iff {ms : Members} {name : String} {c : UInt64} :
    Members.count? ms name = some c ↔ ms.lookup name = some (.count c) := by
  rw [Members.count?]
  split
  · next h => simp [h]
  · next h => simpa using h c

theorem Value.kind_eq_text_iff {v : Value} : v.kind = .text ↔ ∃ s, v = .text s := by
  cases v <;> simp [Value.kind]

theorem Value.kind_eq_count_iff {v : Value} : v.kind = .count ↔ ∃ c, v = .count c := by
  cases v <;> simp [Value.kind]

theorem requestFormat_isGathered : requestFormat.IsGathered where
  toIsLawful := requestFormat_isLawful
  ofMembers?_eq_some_iff ms message := by
    simp only [requestFormat, Option.bind_eq_bind, Option.bind_eq_some_iff, Option.some.injEq,
      Members.text?_eq_some_iff, List.forall_mem_singleton]
    constructor
    · rintro ⟨_, h, rfl⟩
      exact h
    · intro h
      exact ⟨_, h, rfl⟩
  exists_ofMembers? ms h := by
    simp only [requestFormat, Value.kind_eq_text_iff, List.forall_mem_singleton] at h
    obtain ⟨_, ⟨expression, rfl⟩, h⟩ := h
    exact ⟨⟨expression⟩, by simp [requestFormat, Members.text?, h]⟩

theorem responseFormat_isGathered : responseFormat.IsGathered where
  toIsLawful := responseFormat_isLawful
  ofMembers?_eq_some_iff ms message := by
    simp only [responseFormat, Option.bind_eq_bind, Option.bind_eq_some_iff, Option.some.injEq,
      Members.text?_eq_some_iff, List.forall_mem_singleton]
    constructor
    · rintro ⟨_, h, rfl⟩
      exact h
    · intro h
      exact ⟨_, h, rfl⟩
  exists_ofMembers? ms h := by
    simp only [responseFormat, Value.kind_eq_text_iff, List.forall_mem_singleton] at h
    obtain ⟨_, ⟨response, rfl⟩, h⟩ := h
    exact ⟨⟨response⟩, by simp [responseFormat, Members.text?, h]⟩

theorem recordFormat_isGathered : recordFormat.IsGathered where
  toIsLawful := recordFormat_isLawful
  ofMembers?_eq_some_iff ms message := by
    simp only [recordFormat, Option.bind_eq_bind, Option.bind_eq_some_iff, Option.some.injEq,
      Members.text?_eq_some_iff, Members.count?_eq_some_iff, List.forall_mem_cons,
      List.not_mem_nil, false_imp_iff, implies_true, and_true]
    constructor
    · rintro ⟨_, h1, _, h2, _, h3, _, h4, rfl⟩
      exact ⟨h1, h2, h3, h4⟩
    · rintro ⟨h1, h2, h3, h4⟩
      exact ⟨_, h1, _, h2, _, h3, _, h4, rfl⟩
  exists_ofMembers? ms h := by
    simp only [recordFormat, Value.kind_eq_text_iff, Value.kind_eq_count_iff,
      List.forall_mem_cons, List.not_mem_nil, false_imp_iff, implies_true, and_true] at h
    obtain ⟨⟨_, ⟨expression, rfl⟩, h1⟩, ⟨_, ⟨endpoint, rfl⟩, h2⟩, ⟨_, ⟨frequency, rfl⟩, h3⟩,
      ⟨_, ⟨kind, rfl⟩, h4⟩⟩ := h
    exact ⟨⟨expression, endpoint, frequency, kind⟩,
      by simp [recordFormat, Members.text?, Members.count?, h1, h2, h3, h4]⟩

theorem healthFormat_isGathered : healthFormat.IsGathered where
  toIsLawful := healthFormat_isLawful
  ofMembers?_eq_some_iff ms message := by
    simp only [healthFormat, Option.bind_eq_bind, Option.bind_eq_some_iff, Option.some.injEq,
      Members.text?_eq_some_iff, Members.count?_eq_some_iff, List.forall_mem_cons,
      List.not_mem_nil, false_imp_iff, implies_true, and_true]
    constructor
    · rintro ⟨_, h1, _, h2, _, h3, _, h4, _, h5, rfl⟩
      exact ⟨h1, h2, h3, h4, h5⟩
    · rintro ⟨h1, h2, h3, h4, h5⟩
      exact ⟨_, h1, _, h2, _, h3, _, h4, _, h5, rfl⟩
  exists_ofMembers? ms h := by
    simp only [healthFormat, Value.kind_eq_text_iff, Value.kind_eq_count_iff,
      List.forall_mem_cons, List.not_mem_nil, false_imp_iff, implies_true, and_true] at h
    obtain ⟨⟨_, ⟨status, rfl⟩, h1⟩, ⟨_, ⟨version, rfl⟩, h2⟩, ⟨_, ⟨uptime, rfl⟩, h3⟩,
      ⟨_, ⟨kinds, rfl⟩, h4⟩, ⟨_, ⟨total, rfl⟩, h5⟩⟩ := h
    exact ⟨⟨status, version, uptime, kinds, total⟩,
      by simp [healthFormat, Members.text?, Members.count?, h1, h2, h3, h4, h5]⟩

section
variable {α : Type} {f : Format α} {text : List Char} {entries : List (String × Tree)}

theorem lexemes_of_value {t : Tree} (h : Spells text (.value t)) :
    Json.lexemes (Text.symbols text) = t.lexemes := by
  have hstops : Json.Stops [] := trivial
  have hlexemes := Json.lexemes_of_spells h hstops
  simpa [Json.Fragment.lexemes, Json.lexemes, Json.Lexer.State.finish, Json.Lexer.State.start]
    using hlexemes

/-- Decoding an object makes a message of what is collected. -/
theorem decode_object (h : Spells text (.value (.object entries)))
    (hfinite : AreFinite f.fields entries) :
    f.decode (Text.symbols text) =
      match (collect? f.fields [] entries).bind f.ofMembers? with
      | some message => .ok message
      | none => .error .mismatch := by
  have hrun : Reading.start.run f.fields (Json.lexemes (Text.symbols text)) =
      outcome [] (collect? f.fields [] entries) := by
    rw [lexemes_of_value h]
    simpa using Reading.run_object hfinite []
  rw [Format.decode, Format.readFirst, hrun]
  cases hcollect : collect? f.fields [] entries with
  | none => simp [outcome]
  | some ms => cases hms : f.ofMembers? ms <;> simp [outcome, hms]

theorem decode_object_eq_ok_iff_collect (h : Spells text (.value (.object entries)))
    (hfinite : AreFinite f.fields entries) {message : α} :
    f.decode (Text.symbols text) = .ok message ↔
      ∃ all, collect? f.fields [] entries = some all ∧ f.ofMembers? all = some message := by
  rw [decode_object h hfinite, ← Option.bind_eq_some_iff]
  cases (collect? f.fields [] entries).bind f.ofMembers? <;> simp

theorem exists_collect?_of_occurs (hn : (f.fields.map Field.name).Nodup)
    (h : ∀ field ∈ f.fields, ∃ v : Value, v.kind = field.kind ∧ Occurs entries field.name v) :
    ∃ all, collect? f.fields [] entries = some all :=
  exists_collect? hn fun field hf => .inr ⟨rfl, h field hf⟩

theorem eq_mismatch_of_decode_object (h : Spells text (.value (.object entries)))
    (hfinite : AreFinite f.fields entries) {d : Defect}
    (hd : f.decode (Text.symbols text) = .error d) : d = .mismatch := by
  rw [decode_object h hfinite] at hd
  cases hc : (collect? f.fields [] entries).bind f.ofMembers? with
  | none => simpa [hc, eq_comm] using hd
  | some message => simp [hc] at hd

namespace Format.IsGathered
variable (hf : f.IsGathered)
include hf

theorem mem_fields_iff (message : α) {field : Field} :
    field ∈ f.fields ↔ ∃ m ∈ f.members message, Field.mk m.1 m.2.kind = field := by
  rw [← hf.describes message, List.mem_map]

theorem decode_object_eq_ok_iff (h : Spells text (.value (.object entries)))
    (hfinite : AreFinite f.fields entries) (message : α) :
    f.decode (Text.symbols text) = .ok message ↔
      ∀ m ∈ f.members message, Occurs entries m.1 m.2 := by
  rw [decode_object_eq_ok_iff_collect h hfinite]
  have hfield (m : String × Value) (hm : m ∈ f.members message) :
      Field.mk m.1 m.2.kind ∈ f.fields := (hf.mem_fields_iff message).2 ⟨m, hm, rfl⟩
  constructor
  · rintro ⟨all, hall, hmessage⟩ m hm
    have hlookup := (hf.ofMembers?_eq_some_iff all message).1 hmessage m hm
    exact ((lookup_collect?_eq_some_iff hf.nodup hall (hfield m hm)).1 hlookup).2
  · intro hoccurs
    have hfields : ∀ field ∈ f.fields, ∃ v : Value, v.kind = field.kind ∧
        Occurs entries field.name v := by
      intro field hmem
      obtain ⟨m, hm, rfl⟩ := (hf.mem_fields_iff message).1 hmem
      exact ⟨m.2, rfl, hoccurs m hm⟩
    obtain ⟨all, hall⟩ := exists_collect?_of_occurs hf.nodup hfields
    refine ⟨all, hall, (hf.ofMembers?_eq_some_iff all message).2 fun m hm => ?_⟩
    exact (lookup_collect?_eq_some_iff hf.nodup hall (hfield m hm)).2 ⟨rfl, hoccurs m hm⟩

theorem exists_decode_object_iff (h : Spells text (.value (.object entries)))
    (hfinite : AreFinite f.fields entries) :
    (∃ message, f.decode (Text.symbols text) = .ok message) ↔
      ∀ field ∈ f.fields, ∃ v : Value, v.kind = field.kind ∧ Occurs entries field.name v := by
  constructor
  · rintro ⟨message, hmessage⟩ field hmem
    obtain ⟨m, hm, rfl⟩ := (hf.mem_fields_iff message).1 hmem
    exact ⟨m.2, rfl, (hf.decode_object_eq_ok_iff h hfinite message).1 hmessage m hm⟩
  · intro hoccurs
    obtain ⟨all, hall⟩ := exists_collect?_of_occurs hf.nodup hoccurs
    obtain ⟨message, hmessage⟩ := hf.exists_ofMembers? all fun field hmem => by
      obtain ⟨v, hk, hv⟩ := hoccurs field hmem
      exact ⟨v, hk, (lookup_collect?_eq_some_iff hf.nodup hall hmem).2 ⟨hk, hv⟩⟩
    exact ⟨message, (decode_object_eq_ok_iff_collect h hfinite).2 ⟨all, hall, hmessage⟩⟩

/-- Only the members of the fields count, and not their order among each other. -/
theorem decode_object_congr {text' : List Char} {entries' : List (String × Tree)}
    (h : Spells text (.value (.object entries))) (h' : Spells text' (.value (.object entries')))
    (hfinite : AreFinite f.fields entries) (hsame : ∀ field ∈ f.fields,
      (entries.filter (·.1 == field.name)).Perm (entries'.filter (·.1 == field.name))) :
    f.decode (Text.symbols text) = f.decode (Text.symbols text') := by
  have hfinite' := hfinite.of_perm hsame
  have hok (message : α) : f.decode (Text.symbols text) = .ok message ↔
      f.decode (Text.symbols text') = .ok message := by
    rw [hf.decode_object_eq_ok_iff h hfinite, hf.decode_object_eq_ok_iff h' hfinite']
    refine forall₂_congr fun m hm => ?_
    have hperm := hsame _ ((hf.mem_fields_iff message).2 ⟨m, hm, rfl⟩)
    exact ⟨fun ho => ho.of_perm hperm, fun ho => ho.of_perm hperm.symm⟩
  cases hd : f.decode (Text.symbols text) with
  | ok message => exact ((hok message).1 hd).symm
  | error d =>
    cases hd' : f.decode (Text.symbols text') with
    | ok message =>
      rw [(hok message).2 hd'] at hd
      simp at hd
    | error d' =>
      rw [eq_mismatch_of_decode_object h hfinite hd, eq_mismatch_of_decode_object h' hfinite' hd']

theorem decode_array {ts : List Tree} (h : Spells text (.value (.array ts))) {message : α}
    (hts : List.Forall₂ Says ts ((f.members message).map Prod.snd)) :
    f.decode (Text.symbols text) = .ok message := by
  have hrun := Reading.run_array (hf.describes message) hts []
  rw [List.append_nil, ← lexemes_of_value h] at hrun
  simp [Format.decode, Format.readFirst, hrun, hf.ofMembers?_members]

end Format.IsGathered

end

/-- What decoding makes of objects and arrays, for messages of these fields and with these members.
The first two say which objects are messages and which ones, the third that all others are
mismatches, and the fourth that nothing matters but the members of the fields. -/
structure Format.Accepts {α : Type} (f : Format α) (fields : List Field) (members : α → Members) :
    Prop where
  exists_decode_iff : ∀ text entries, Spells text (.value (.object entries)) →
    AreFinite fields entries →
      ((∃ message, f.decode (Text.symbols text) = .ok message) ↔
        ∀ field ∈ fields, ∃ v : Value, v.kind = field.kind ∧ Occurs entries field.name v)
  decode_eq_ok_iff : ∀ text entries, Spells text (.value (.object entries)) →
    AreFinite fields entries → ∀ message,
      (f.decode (Text.symbols text) = .ok message ↔
        ∀ m ∈ members message, Occurs entries m.1 m.2)
  eq_mismatch : ∀ text entries, Spells text (.value (.object entries)) →
    AreFinite fields entries → ∀ d, f.decode (Text.symbols text) = .error d → d = .mismatch
  decode_congr : ∀ text entries text' entries', Spells text (.value (.object entries)) →
    Spells text' (.value (.object entries')) → AreFinite fields entries →
      (∀ field ∈ fields, (entries.filter (·.1 == field.name)).Perm
        (entries'.filter (·.1 == field.name))) →
          f.decode (Text.symbols text) = f.decode (Text.symbols text')
  decode_array : ∀ text ts, Spells text (.value (.array ts)) →
    ∀ message, List.Forall₂ Says ts ((members message).map Prod.snd) →
      f.decode (Text.symbols text) = .ok message

theorem Format.IsGathered.accepts {α : Type} {f : Format α} (hf : f.IsGathered) :
    f.Accepts f.fields f.members where
  exists_decode_iff _ _ := hf.exists_decode_object_iff
  decode_eq_ok_iff _ _ := hf.decode_object_eq_ok_iff
  eq_mismatch _ _ h hfinite _ := eq_mismatch_of_decode_object h hfinite
  decode_congr _ _ _ _ := hf.decode_object_congr
  decode_array _ _ h _ := hf.decode_array h

/-- A numeral is lost in none but the last steps below the largest double. -/
theorem isFinite_of_isAtMost {n : Json.Numeral} (h : n.IsAtMost Json.safeBound) :
    IsFinite (.number n) := by
  rintro _ ⟨⟩
  exact Json.Numeral.inDoubleRange_of_isAtMost h

/-- The objects and arrays that the four types of messages are read from. The values of their fields
may be numerals with a finite double, and all up to three units below the largest have one. -/
theorem messages_accepted :
    (∀ n : Json.Numeral, n.IsAtMost Json.safeBound → IsFinite (.number n)) ∧
    requestFormat.Accepts [⟨"expression", .text⟩] (fun m => [("expression", .text m.expression)]) ∧
    responseFormat.Accepts [⟨"response", .text⟩] (fun m => [("response", .text m.response)]) ∧
    recordFormat.Accepts
      [⟨"expression", .text⟩, ⟨"endpoint", .text⟩, ⟨"frequency", .count⟩, ⟨"type", .text⟩]
      (fun r =>
        [("expression", .text r.expression), ("endpoint", .text r.endpoint),
         ("frequency", .count r.frequency), ("type", .text r.kind)]) ∧
    healthFormat.Accepts
      [⟨"status", .text⟩, ⟨"version", .text⟩, ⟨"uptime_seconds", .count⟩,
       ⟨"tracked_error_kinds", .count⟩, ⟨"total_failures", .count⟩]
      (fun h =>
        [("status", .text h.status), ("version", .text h.version),
         ("uptime_seconds", .count h.uptimeSeconds),
         ("tracked_error_kinds", .count h.trackedErrorKinds),
         ("total_failures", .count h.totalFailures)]) :=
  ⟨fun _ h => isFinite_of_isAtMost h, requestFormat_isGathered.accepts,
    responseFormat_isGathered.accepts, recordFormat_isGathered.accepts,
    healthFormat_isGathered.accepts⟩

/-- A name may be spelled with escapes, and an unknown member may be anything. -/
example : responseFormat.decode (Text.symbols
    "\x7b\"x\":[\x7b\"response\":1e999\x7d],\"\\u0072esponse\":\"5\",\"x\":null\x7d".toList) =
      .ok ⟨"5"⟩ := by
  decide +kernel

/-- A little less than the largest double, with a significand that is rounded up. -/
def hugeNumeral : Json.Numeral where
  negative := false
  whole := "1797693134862315708".toList
  fraction := none
  exponent := some ⟨'e', [], "290".toList, .inl rfl, .inl rfl, by simp, by simp⟩
  isWhole := ⟨by simp, by simp⟩
  noLeadingZero := .inr (by decide)
  isFraction := by simp

def hugeText : String := "\x7b\"expression\":1797693134862315708e290\x7d"

/-- Not every numeral up to the largest double is a mismatch where a text is wanted. -/
theorem hugeText_malformed :
    Spells hugeText.toList (.value (.object [("expression", .number hugeNumeral)])) ∧
      hugeNumeral.IsAtMost Json.largestDouble ∧
        requestFormat.decode (Text.symbols hugeText.toList) = .error .malformed := by
  refine ⟨?_, by decide +kernel, by decide +kernel⟩
  have hname : Json.SpellsCharacters "expression".toList "expression".toList :=
    Json.spellsCharacters_plain (by simp)
  exact .object (.members (.member (.string hname) (.number hugeNumeral)) .noFurtherMembers)

end PhraseArithmetic.Wire
