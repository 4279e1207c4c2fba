import PhraseArithmetic.Wire.Written

/-!
# Messages and their texts

The text of a message is one JSON object with the members of its type, in order and with nothing
between them, and decodes to the message. So to write anew what a text says changes nothing that it
says, and once is enough.
-/
namespace PhraseArithmetic.Wire

/-- The JSON text of a value. -/
def Value.written : Value → String
  | .text s => String.ofList (Json.quoted s)
  | .count n => toString n

/-- A JSON object with these members, under their names as they are. -/
def object (ms : Members) : String :=
  "\x7b" ++ ",".intercalate (ms.map fun m => "\"" ++ m.1 ++ "\":" ++ m.2.written) ++ "\x7d"

/-- No character of the name needs an escape. -/
def IsPlain (name : String) : Prop := name.toList.flatMap Json.escaped = name.toList

instance (name : String) : Decidable (IsPlain name) :=
  inferInstanceAs (Decidable (name.toList.flatMap Json.escaped = name.toList))

theorem Value.toList_written (v : Value) : v.written.toList = v.encode := by
  cases v with
  | text s => exact String.toList_ofList
  | count n => exact String.toList_ofList

theorem toList_member {m : String × Value} (h : IsPlain m.1) :
    ("\"" ++ m.1 ++ "\":" ++ m.2.written).toList = encodeMember m := by
  have hname : m.1.toList.flatMap Json.escaped = m.1.toList := h
  simp [encodeMember, Json.quoted, hname, Value.toList_written]

theorem toList_object {ms : Members} (h : ∀ m ∈ ms, IsPlain m.1) :
    (object ms).toList = encodeMembers ms := by
  -- the names are plain, so each member is written as the encoder writes it
  have hmembers : (ms.map fun m => ("\"" ++ m.1 ++ "\":" ++ m.2.written).toList) =
      ms.map encodeMember := List.map_congr_left fun m hm => toList_member (h m hm)
  simp [object, encodeMembers, String.toList_intercalate, ← hmembers, Function.comp_def]

theorem Describes.forall_mem {fields : List Field} {ms : Members} (h : Describes fields ms)
    {p : String → Prop} (hp : ∀ field ∈ fields, p field.name) : ∀ m ∈ ms, p m.1 := by
  intro m hm
  have hfield : Field.mk m.1 m.2.kind ∈ fields := by
    rw [← h]
    exact List.mem_map_of_mem hm
  exact hp _ hfield

namespace Format

variable {α : Type} (f : Format α)

/-- The text of the message that a text says. -/
def rewrite (text : List Text.Symbol) : Except Defect String := (f.decode text).map f.encode

/-- A message is written as the object with these members and read back from it, and to write anew
what a text says keeps what it says. -/
structure RoundTrips (members : α → Members) : Prop where
  encode_eq : ∀ message, f.encode message = object (members message)
  decode_encode : ∀ message, f.decode (Text.symbols (f.encode message).toList) = .ok message
  decode_rewrite : ∀ text written, f.rewrite text = .ok written →
    f.decode (Text.symbols written.toList) = f.decode text
  rewrite_rewrite : ∀ text written, f.rewrite text = .ok written →
    f.rewrite (Text.symbols written.toList) = .ok written

variable {f}

theorem IsLawful.encode_eq_object (h : f.IsLawful) (hplain : ∀ field ∈ f.fields, IsPlain field.name)
    (message : α) : f.encode message = object (f.members message) := by
  apply String.toList_inj.1
  rw [toList_object ((h.describes message).forall_mem hplain), encode, String.toList_ofList]
  rfl

theorem exists_of_rewrite_eq_ok {text : List Text.Symbol} {written : String}
    (h : f.rewrite text = .ok written) :
    ∃ message, f.decode text = .ok message ∧ f.encode message = written := by
  cases hd : f.decode text with
  | error defect => simp [rewrite, hd, Except.map] at h
  | ok message => exact ⟨message, rfl, by simpa [rewrite, hd, Except.map] using h⟩

theorem IsLawful.roundTrips (h : f.IsLawful) (hplain : ∀ field ∈ f.fields, IsPlain field.name) :
    f.RoundTrips f.members where
  encode_eq := h.encode_eq_object hplain
  decode_encode := h.decode_encode
  decode_rewrite text written hw := by
    obtain ⟨message, hd, rfl⟩ := exists_of_rewrite_eq_ok hw
    rw [h.decode_encode, hd]
  rewrite_rewrite text written hw := by
    obtain ⟨message, -, rfl⟩ := exists_of_rewrite_eq_ok hw
    rw [rewrite, h.decode_encode]
    rfl

end Format

/-- Every message of the four types, whatever characters its texts have and however large its
counts are, is read back from its text. -/
theorem messages_round_trip :
    requestFormat.RoundTrips (fun m => [("expression", .text m.expression)]) ∧
    responseFormat.RoundTrips (fun m => [("response", .text m.response)]) ∧
    recordFormat.RoundTrips (fun r =>
      [("expression", .text r.expression), ("endpoint", .text r.endpoint),
       ("frequency", .count r.frequency), ("type", .text r.kind)]) ∧
    healthFormat.RoundTrips (fun h =>
      [("status", .text h.status), ("version", .text h.version),
       ("uptime_seconds", .count h.uptimeSeconds),
       ("tracked_error_kinds", .count h.trackedErrorKinds),
       ("total_failures", .count h.totalFailures)]) :=
  ⟨requestFormat_isLawful.roundTrips (by decide), responseFormat_isLawful.roundTrips (by decide),
    recordFormat_isLawful.roundTrips (by decide), healthFormat_isLawful.roundTrips (by decide)⟩

/-- A member that is not known goes, and only what has to be escaped is. -/
example : (responseFormat.rewrite (Text.symbols
    "\x7b\"x\": [1], \"response\": \"\\u0041\\u0000\\\"\\/\"\x7d".toList)).toOption =
    some "\x7b\"response\":\"A\\u0000\\\"/\"\x7d" := by
  decide +kernel

end PhraseArithmetic.Wire
