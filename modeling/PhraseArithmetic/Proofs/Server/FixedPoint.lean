import PhraseArithmetic.Proofs.Scanning.Numerals
import PhraseArithmetic.Proofs.Server.Front

/-!
# Asking about an answer

The value of a phrase is answered in decimal, with nothing in it that JSON escapes. Asked about that
text the server answers it again, and says that it is valid. Neither is counted.
-/
namespace PhraseArithmetic

theorem Json.flatMap_escaped_integerDigits (n : Int) :
    (Text.integerDigits n).flatMap escaped = Text.integerDigits n := by
  have hdigit : ∀ d < 10, escaped d.digitChar = [d.digitChar] := by decide
  have hescaped : ∀ c ∈ Text.integerDigits n, escaped c = [c] := by
    intro c hc
    rcases Text.eq_minus_or_isDigit_of_mem_integerDigits hc with rfl | hc
    · rfl
    · obtain ⟨d, hd, rfl⟩ := Text.exists_digitChar_of_isDigit hc
      exact hdigit d hd
  rw [List.flatMap_congr hescaped, List.flatMap_singleton']

namespace Wire

/-- The object with one member, a text in which nothing is escaped. -/
def singleMember (name text : String) : String := "\x7b\"" ++ name ++ "\":\"" ++ text ++ "\"\x7d"

theorem encode_request_decimal (n : Int) :
    requestFormat.encode ⟨Text.decimal n⟩ = singleMember "expression" (Text.decimal n) := by
  apply String.toList_inj.1
  simp [Format.encode, Format.encodeChars, requestFormat, encodeMembers, encodeMember, Value.encode,
    Json.quoted, Text.decimal, Json.flatMap_escaped_integerDigits, singleMember, Json.escaped]

theorem encode_response_decimal (n : Int) :
    responseFormat.encode ⟨Text.decimal n⟩ = singleMember "response" (Text.decimal n) := by
  apply String.toList_inj.1
  simp [Format.encode, Format.encodeChars, responseFormat, encodeMembers, encodeMember,
    Value.encode, Json.quoted, Text.decimal, Json.flatMap_escaped_integerDigits, singleMember,
    Json.escaped]

end Wire

theorem Inquiry.judge_value_decimal (n : Int64) :
    value.judge (Text.decimal n.toInt) = .ok (.number n) := by
  rw [judge, Token.scan_decimal]
  rfl

theorem Inquiry.judge_validity_decimal (n : Int64) :
    validity.judge (Text.decimal n.toInt) = .ok .valid := by
  rw [judge, Token.scan_decimal]
  rfl

theorem Inquiry.exists_number_of_judge_value {phrase : String} {a : Answer}
    (h : value.judge phrase = .ok a) : ∃ n : Int64, a = .number n := by
  cases he : Token.evaluate (Token.scan phrase) with
  | ok n => exact ⟨n, by simpa [judge, he, Except.map] using h.symm⟩
  | error fault => simp [judge, he, Except.map] at h

namespace Server

section
variable {longest limit : Nat} {uptime : UInt64} {r : Http.Request} {l : Ledger} {q : Inquiry}

/-- Where values are asked for, only a value is answered with status 200. -/
theorem Ruling.exists_number {x : Exchange} (h : Ruling longest limit uptime r l x)
    (hpath : r.path = "/extractNumber") (hstatus : x.response.status = 200) :
    ∃ n : Int64,
      x.response = .json 200 (Wire.singleMember "response" (Text.decimal n.toInt)) := by
  cases h with
  | declaredLength => simp [refusal] at hstatus
  | unknownPath => simp at hstatus
  | unservedMethod => simp at hstatus
  | listing _ hp => simp [hpath] at hp
  | report _ hp => simp [hpath] at hp
  | contentType => simp [Http.Response.plain] at hstatus
  | bodyLength => simp [Http.Response.plain] at hstatus
  | undecodable => simp [Http.Response.plain] at hstatus
  | failed => simp [Http.Response.json] at hstatus
  | answered q hb m hd reply hr a ha =>
    have hq : q = .value := by
      have hpaths := hb.path_eq
      rw [hpath] at hpaths
      cases q with
      | value => rfl
      | validity => exact absurd hpaths (by decide)
    subst hq hr
    cases hj : Inquiry.value.judge m.expression with
    | error fault => simp [Inquiry.ask_of_error hj] at ha
    | ok b =>
      obtain ⟨n, rfl⟩ := Inquiry.exists_number_of_judge_value hj
      obtain rfl : .number n = a := by simpa [Inquiry.ask_of_ok hj] using ha
      exact ⟨n, by rw [← Wire.encode_response_decimal]; rfl⟩

/-- A request about a phrase, as it is written, asks about that phrase. -/
theorem Buffered.respond_eq_of_encode (h : Buffered (bodyLimit limit r) limit r q) {phrase : String}
    (hbody : r.body = (Wire.requestFormat.encode ⟨phrase⟩).toUTF8) :
    respond limit uptime r l = inquire q phrase l := by
  have hdecode := Wire.requestFormat_isLawful.decode_encode ⟨phrase⟩
  exact h.respond_eq_of_decoded (decoded_append hdecode (hbody.trans ByteArray.append_empty.symm))

end

/-- A value that the server answers is the decimal form of a number. Posted back in a request that
is taken, it gets the very response in which it came, and as an expression to validate it is valid;
the ledger is left as it was both times. -/
theorem answer_is_fixed_point (limit : Nat) (uptime : UInt64) (r : Http.Request) (l : Ledger)
    (hpath : r.path = "/extractNumber")
    (hstatus : (respond limit uptime r l).response.status = 200) :
    ∃ n : Int64,
      (respond limit uptime r l).response =
        .json 200 (Wire.singleMember "response" (Text.decimal n.toInt)) ∧
      ∀ (limit' : Nat) (uptime' : UInt64) (r' : Http.Request) (l' : Ledger),
        r'.body = (Wire.singleMember "expression" (Text.decimal n.toInt)).toUTF8 →
          (Buffered (bodyLimit limit' r') limit' r' .value →
            (respond limit' uptime' r' l').response = (respond limit uptime r l).response ∧
              (respond limit' uptime' r' l').ledger = l') ∧
          (Buffered (bodyLimit limit' r') limit' r' .validity →
            (respond limit' uptime' r' l').response =
                .json 200 (Wire.singleMember "response" "Expression is valid") ∧
              (respond limit' uptime' r' l').ledger = l') := by
  obtain ⟨n, hn⟩ := (ruling_iff.2 rfl).exists_number hpath hstatus
  refine ⟨n, hn, ?_⟩
  intro limit' uptime' r' l' hbody
  rw [← Wire.encode_request_decimal] at hbody
  constructor
  · intro h
    rw [h.respond_eq_of_encode hbody, inquire_of_ok (Inquiry.judge_value_decimal n), hn,
      ← Wire.encode_response_decimal]
    exact ⟨rfl, rfl⟩
  · intro h
    rw [h.respond_eq_of_encode hbody, inquire_of_ok (Inquiry.judge_validity_decimal n)]
    exact ⟨rfl, rfl⟩

def wrapping : String := "\x7b\"expression\":\"it is 9223372036854775807 plus 1\"\x7d"

theorem response_wrapping :
    (respond 65536 0 (sent wrapping.toUTF8) .empty).response =
      .json 200 "\x7b\"response\":\"-9223372036854775808\"\x7d" := by
  have hdecode : Wire.requestFormat.decode (Text.symbols wrapping.toList) =
      .ok ⟨"it is 9223372036854775807 plus 1"⟩ := by decide +kernel
  have hjudge : Inquiry.value.judge "it is 9223372036854775807 plus 1" =
      .ok (.number Int64.minValue) := by decide +kernel
  have hbuffered := @sent_buffered wrapping.toUTF8 (by decide)
  rw [hbuffered.respond_eq_of_decoded (decoded_append hdecode ByteArray.append_empty.symm),
    inquire_of_ok hjudge]
  decide +kernel

/-- The smallest number, to which a sum has wrapped, is answered again when it is asked about. -/
theorem smallest_is_fixed_point :
    (sent wrapping.toUTF8).path = "/extractNumber" ∧
    (respond 65536 0 (sent wrapping.toUTF8) .empty).response.status = 200 ∧
    (respond 65536 0 (sent "\x7b\"expression\":\"-9223372036854775808\"\x7d".toUTF8)
        .empty).response = .json 200 "\x7b\"response\":\"-9223372036854775808\"\x7d" := by
  have hpath : (sent wrapping.toUTF8).path = "/extractNumber" := by
    change Http.targetPath "/extractNumber" = "/extractNumber"
    decide
  have hstatus : (respond 65536 0 (sent wrapping.toUTF8) .empty).response.status = 200 := by
    rw [response_wrapping]
    rfl
  refine ⟨hpath, hstatus, ?_⟩
  obtain ⟨n, hn, hagain⟩ :=
    answer_is_fixed_point 65536 0 (sent wrapping.toUTF8) .empty hpath hstatus
  have htext : Text.decimal n.toInt = "-9223372036854775808" := by
    rw [response_wrapping] at hn
    have hbody := congrArg (fun x => x.body.toList) hn
    have hdigits : "-9223372036854775808".toList ++ ['"', '\x7d'] =
        (Text.decimal n.toInt).toList ++ ['"', '\x7d'] := by
      simpa [Http.Response.json, Wire.singleMember] using hbody
    exact (String.toList_inj.1 (List.append_cancel_right hdigits)).symm
  rw [htext] at hagain
  have hbuffered :=
    @sent_buffered "\x7b\"expression\":\"-9223372036854775808\"\x7d".toUTF8 (by decide)
  rw [((hagain 65536 0 _ .empty rfl).1 hbuffered).1, response_wrapping]

end Server
end PhraseArithmetic
