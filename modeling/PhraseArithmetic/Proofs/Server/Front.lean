import PhraseArithmetic.Proofs.Server.Accounting
import PhraseArithmetic.Proofs.Wire.FirstMessage

/-!
# The message in front of a body

Of a body no more is read than the first message. A client sees from the answer alone which phrase
the service was asked about, and that is the one in a front of the body that is a request as a
whole, whatever octets come behind it.
-/
namespace PhraseArithmetic

theorem Text.quote_notMem_integerDigits (n : Int) : '\'' ∉ integerDigits n := by
  intro h
  rcases eq_minus_or_isDigit_of_mem_integerDigits h with hminus | hdigit
  · exact absurd hminus (by decide)
  · exact absurd hdigit (by decide)

namespace Server

/-- The last quote of a text divides it in one way. -/
theorem eq_of_append_quote_eq {a b x y : List Char} (hx : '\'' ∉ x) (hy : '\'' ∉ y)
    (h : a ++ '\'' :: x = b ++ '\'' :: y) : a = b := by
  rcases List.append_eq_append_iff.1 h with ⟨c, rfl, hc⟩ | ⟨c, rfl, hc⟩
  · cases c with
    | nil => simp
    | cons d c =>
      obtain ⟨-, rfl⟩ := List.cons.inj hc
      simp at hx
  · cases c with
    | nil => simp
    | cons d c =>
      obtain ⟨-, rfl⟩ := List.cons.inj hc
      simp at hy

section
variable {q : Inquiry} {phrase phrase' : String} {l : Ledger}

theorem eq_of_successEvent_eq {a a' : Answer}
    (h : successEvent phrase a = successEvent phrase' a') : phrase = phrase' := by
  have hmessage := congrArg (fun e => e.message.toList) h
  apply String.toList_inj.1
  cases a with
  | number n =>
    cases a' with
    | number n' =>
      simp only [successEvent] at hmessage
      refine eq_of_append_quote_eq (x := " = ".toList ++ Text.integerDigits n.toInt)
        (y := " = ".toList ++ Text.integerDigits n'.toInt) ?_ ?_ ?_
      · simp [Text.quote_notMem_integerDigits]
      · simp [Text.quote_notMem_integerDigits]
      · simpa [toString, Text.decimal] using hmessage
    | valid => simp [successEvent, toString] at hmessage
  | valid =>
    cases a' with
    | number n' => simp [successEvent, toString] at hmessage
    | valid => simpa [successEvent, toString] using hmessage

theorem response_inquire_of_error {fault : Fault} (h : q.judge phrase = .error fault) :
    (inquire q phrase l).response =
      .json 400 (Wire.recordFormat.encode (l.recount (q.occurrence fault phrase))) := by
  simp [inquire, Inquiry.ask_of_error h, Inquiry.occurrence]

theorem inquire_of_ok {a : Answer} (h : q.judge phrase = .ok a) :
    inquire q phrase l =
      ⟨.json 200 (Wire.responseFormat.encode ⟨a.text⟩), [successEvent phrase a], l⟩ := by
  simp [inquire, Inquiry.ask_of_ok h]

theorem status_inquire_of_error {fault : Fault} (h : q.judge phrase = .error fault) :
    (inquire q phrase l).response.status = 400 := by
  rw [response_inquire_of_error h]
  rfl

theorem status_inquire_of_ok {a : Answer} (h : q.judge phrase = .ok a) :
    (inquire q phrase l).response.status = 200 := by
  rw [inquire_of_ok h]
  rfl

/-- No two phrases are answered alike: an answer is logged with its phrase, and a failure reports
it. -/
theorem eq_of_inquire_eq (h : inquire q phrase l = inquire q phrase' l) : phrase = phrase' := by
  have hstatus := congrArg (fun x => x.response.status) h
  cases hj : q.judge phrase with
  | ok a =>
    cases hj' : q.judge phrase' with
    | ok a' =>
      have hlog := congrArg Exchange.log h
      rw [inquire_of_ok hj, inquire_of_ok hj'] at hlog
      exact eq_of_successEvent_eq (List.singleton_inj.1 hlog)
    | error fault' => simp [status_inquire_of_ok hj, status_inquire_of_error hj'] at hstatus
  | error fault =>
    cases hj' : q.judge phrase' with
    | ok a' => simp [status_inquire_of_error hj, status_inquire_of_ok hj'] at hstatus
    | error fault' =>
      have hfailure := congrArg (fun x => x.response.failure?) h
      simp only [response_inquire_of_error hj, response_inquire_of_error hj',
        Http.Response.failure?_json] at hfailure
      exact congrArg Record.expression (Option.some.inj hfailure)

theorem contentType_inquire :
    (inquire q phrase l).response.contentType = some "application/json" := by
  cases hj : q.judge phrase with
  | ok a =>
    rw [inquire_of_ok hj]
    rfl
  | error fault =>
    rw [response_inquire_of_error hj]
    rfl

/-- The exchange passes on the service's reply about a phrase: the result as the response, the
reply's log with one event about the result behind it, and the reply's ledger. -/
structure Relays (reply : Reply) (phrase : String) (x : Exchange) : Prop where
  answered : ∀ a, reply.result = .ok a →
    x.response = .json 200 (Wire.responseFormat.encode ⟨a.text⟩) ∧
      x.log = reply.log ++ [successEvent phrase a]
  failed : ∀ f, reply.result = .error f →
    x.response = .json 400 (Wire.recordFormat.encode f.toRecord) ∧
      x.log = reply.log ++ [failureEvent f]
  ledger_eq : x.ledger = reply.ledger

theorem relays_inquire : Relays (q.ask phrase l) phrase (inquire q phrase l) where
  answered a ha := by simp [inquire, ha]
  failed f hf := by simp [inquire, hf]
  ledger_eq := by cases hr : (q.ask phrase l).result <;> simp [inquire, hr]

/-- A reply leaves nothing of the exchange open. -/
theorem Relays.unique {reply : Reply} {x y : Exchange} (hx : Relays reply phrase x)
    (hy : Relays reply phrase y) : x = y := by
  have hledger : x.ledger = y.ledger := hx.ledger_eq.trans hy.ledger_eq.symm
  have hrest : x.response = y.response ∧ x.log = y.log := by
    cases hr : reply.result with
    | ok a =>
      obtain ⟨hresponse, hlog⟩ := hy.answered a hr
      rw [hresponse, hlog]
      exact hx.answered a hr
    | error f =>
      obtain ⟨hresponse, hlog⟩ := hy.failed f hr
      rw [hresponse, hlog]
      exact hx.failed f hr
  cases x
  cases y
  simp only [Exchange.mk.injEq]
  exact ⟨hrest.1, hrest.2, hledger⟩

theorem relays_iff_eq_inquire {x : Exchange} :
    Relays (q.ask phrase l) phrase x ↔ x = inquire q phrase l := by
  constructor
  · intro h
    exact h.unique relays_inquire
  · rintro rfl
    exact relays_inquire

end

/-- A front of the text is, as a whole, a request about the phrase. -/
def Carries (text phrase : String) : Prop :=
  ∃ front rest : String, text = front ++ rest ∧
    Wire.requestFormat.decode (Text.symbols front.toList) = .ok ⟨phrase⟩

theorem decodeFirst_eq_ok_iff_carries {text phrase : String} :
    Wire.requestFormat.decodeFirst (Text.symbols text.toList) = .ok ⟨phrase⟩ ↔
      Carries text phrase := by
  rw [Wire.Format.decodeFirst_eq_ok_iff_exists_front]
  constructor
  · rintro ⟨before, behind, htext, h⟩
    obtain ⟨front, rest, hlist, rfl, -⟩ := List.map_eq_append_iff.1 htext
    refine ⟨String.ofList front, String.ofList rest, ?_, by rwa [String.toList_ofList]⟩
    rw [← String.ofList_append, ← hlist, String.ofList_toList]
  · rintro ⟨front, rest, rfl, h⟩
    exact ⟨_, Text.symbols rest.toList, by simp [Text.symbols], h⟩

section
variable {limit : Nat} {uptime : UInt64} {r : Http.Request} {l : Ledger} {q : Inquiry}

theorem Buffered.respond_eq_of_decoded (h : Buffered (bodyLimit limit r) limit r q)
    {m : Wire.ExpressionRequest} (hd : decoded r = .ok m) :
    respond limit uptime r l = inquire q m.expression l := by
  rw [h.respond_eq, h.expression_eq, hd]

theorem Buffered.respond_eq_of_undecodable (h : Buffered (bodyLimit limit r) limit r q)
    {d : Wire.Defect} (hd : decoded r = .error d) :
    respond limit uptime r l =
      ⟨.plain 400 (Rejection.defect d).text, [(Rejection.defect d).event], l⟩ :=
  respond_eq_of_ruling (.undecodable q h d hd)

/-- The answer tells which phrase the body was decoded to. -/
theorem Buffered.respond_eq_inquire_iff (h : Buffered (bodyLimit limit r) limit r q)
    {phrase : String} :
    respond limit uptime r l = inquire q phrase l ↔ decoded r = .ok ⟨phrase⟩ := by
  constructor
  · intro hr
    cases hd : decoded r with
    | ok m =>
      rw [h.respond_eq_of_decoded hd] at hr
      rw [← eq_of_inquire_eq hr]
    | error d =>
      have htype := congrArg (fun x => x.response.contentType) hr
      rw [h.respond_eq_of_undecodable hd] at htype
      simp [contentType_inquire, Http.Response.plain] at htype
  · intro hd
    exact h.respond_eq_of_decoded hd

theorem decoded_of_utf8 {text : String} (hr : r.body = text.toUTF8) :
    decoded r = Wire.requestFormat.decodeFirst (Text.symbols text.toList) := by
  rw [decoded, hr, Text.octetSymbols_toUTF8]

/-- Octets behind a request that a body is as a whole are not looked at. -/
theorem decoded_append {text : String} {m : Wire.ExpressionRequest} {more : ByteArray}
    (h : Wire.requestFormat.decode (Text.symbols text.toList) = .ok m)
    (hr : r.body = text.toUTF8 ++ more) : decoded r = .ok m := by
  have hoctets : text.toUTF8 = text.toList.utf8Encode := by
    rw [← String.toByteArray_ofList, String.ofList_toList]
    rfl
  rw [decoded, hr, hoctets, Text.octetSymbols_utf8Encode_append]
  exact Wire.Format.decodeFirst_append_of_decode h _

end

/-- A body that reaches its decoding is answered by the request in front of it. With text as the
body the service's reply about a phrase is passed on exactly when a front of the text is a request
about the phrase, and with no such front nothing is counted. Any octets may come behind a text that
is a request. The limit is the one in force: the smallest of 2 MiB, the configured limit and the
declared length. -/
theorem respond_decided_by_front (limit : Nat) (uptime : UInt64) (r : Http.Request) (l : Ledger)
    (q : Inquiry) (h : Buffered (bodyLimit limit r) limit r q) :
    (∀ text : String, r.body = text.toUTF8 →
      (∀ phrase,
        Relays (q.ask phrase l) phrase (respond limit uptime r l) ↔ Carries text phrase) ∧
      ((∀ phrase, ¬Carries text phrase) →
        (respond limit uptime r l).response.status = 400 ∧
        (respond limit uptime r l).response.contentType = some "text/plain; charset=utf-8" ∧
        (respond limit uptime r l).ledger = l)) ∧
    ∀ (front : String) (m : Wire.ExpressionRequest),
      Wire.requestFormat.decode (Text.symbols front.toList) = .ok m → r.body = front.toUTF8 →
        ∀ (r' : Http.Request) (more : ByteArray), r'.body = front.toUTF8 ++ more →
          Buffered (bodyLimit limit r') limit r' q →
            respond limit uptime r' l = respond limit uptime r l := by
  refine ⟨fun text hr => ⟨fun phrase => ?_, fun hnone => ?_⟩, ?_⟩
  · rw [relays_iff_eq_inquire, h.respond_eq_inquire_iff, decoded_of_utf8 hr,
      decodeFirst_eq_ok_iff_carries]
  · cases hd : decoded r with
    | ok m =>
      rw [decoded_of_utf8 hr] at hd
      exact absurd (decodeFirst_eq_ok_iff_carries.1 hd) (hnone m.expression)
    | error d =>
      rw [h.respond_eq_of_undecodable hd]
      exact ⟨rfl, rfl, rfl⟩
  · intro front m hm hr r' more hr' h'
    have hd : decoded r = .ok m := decoded_append hm (hr.trans ByteArray.append_empty.symm)
    rw [h.respond_eq_of_decoded hd, h'.respond_eq_of_decoded (decoded_append hm hr')]

def sent (body : ByteArray) : Http.Request :=
  ⟨"POST", "/extractNumber", [("content-type", "application/json")], body⟩

def five : String := "\x7b\"expression\":\"5\"\x7d"

/-- A blank and an octet that is in no character. -/
def stray : ByteArray := ⟨#[0x20, 0xff]⟩

theorem sent_contentLength? (body : ByteArray) : (sent body).contentLength? = none := rfl

theorem sent_buffered {body : ByteArray} (h : body.size ≤ 65536) :
    Buffered (bodyLimit 65536 (sent body)) 65536 (sent body) .value where
  declared := by simp [DeclaresAbove, sent_contentLength?]
  path_eq := by
    change Http.targetPath "/extractNumber" = "/extractNumber"
    decide
  method_eq := rfl
  hasJsonContent := rfl
  size_le := h

/-- The number five is answered alike with and without a stray octet behind it. -/
theorem five_decided_by_front :
    Relays (Inquiry.value.ask "5" .empty) "5" (respond 65536 0 (sent five.toUTF8) .empty) ∧
      Relays (Inquiry.value.ask "5" .empty) "5"
        (respond 65536 0 (sent (five.toUTF8 ++ stray)) .empty) := by
  have hdecode : Wire.requestFormat.decode (Text.symbols five.toList) = .ok ⟨"5"⟩ := by
    decide +kernel
  obtain ⟨htext, hmore⟩ :=
    respond_decided_by_front 65536 0 (sent five.toUTF8) .empty .value (sent_buffered (by decide))
  have hfive := ((htext five rfl).1 "5").2 ⟨five, "", String.append_empty.symm, hdecode⟩
  refine ⟨hfive, ?_⟩
  rw [hmore five _ hdecode rfl _ stray rfl (sent_buffered (by decide))]
  exact hfive

end Server
end PhraseArithmetic
