import PhraseArithmetic.Proofs.Server.Limit

/-!
# Bodies refused for their length

A posted body is refused for its length when the declared length is above the configured limit,
when the body is longer than was declared or, with no length declared, longer than the limit, and
when it is longer than the buffer. Nothing else about the body counts then: it is not decoded, and
nothing is asked or counted.
-/
namespace PhraseArithmetic.Server

/-- The request posts JSON to the endpoint of an inquiry. -/
structure Posts (r : Http.Request) (q : Inquiry) : Prop where
  path_eq : r.path = q.endpoint.path
  method_eq : r.method = "POST"
  hasJsonContent : r.hasJsonContent = true

/-- By the configured limit and the declared length the request is too long. -/
def Exceeds (limit : Nat) (r : Http.Request) : Prop :=
  match r.contentLength? with
  | none => limit < r.body.size
  | some declared => limit < declared ∨ declared < r.body.size

/-- What a request that is too long gets. Of the request only the declared length is read. -/
def lengthRefusal (limit : Nat) (r : Http.Request) (l : Ledger) : Exchange :=
  if declaresTooMuch limit r then refuseLength l
  else ⟨.plain 413 Rejection.length.text, [Rejection.length.event], l⟩

section
variable {limit larger : Nat} {uptime : UInt64} {r : Http.Request} {l : Ledger} {q : Inquiry}

theorem status_lengthRefusal : (lengthRefusal limit r l).response.status = 413 := by
  unfold lengthRefusal
  split <;> rfl

/-- One check of the declared length and one of the body come to the three limits. -/
theorem declaresAbove_or_bodyLimit_lt_iff :
    DeclaresAbove limit r ∨ bodyLimit limit r < r.body.size ↔
      Exceeds limit r ∨ bufferLimit < r.body.size := by
  cases hn : r.contentLength? with
  | none =>
    simp only [DeclaresAbove, bodyLimit, Exceeds, hn, Option.getD_none]
    simp
    omega
  | some declared =>
    have hdeclared : DeclaresAbove limit r ↔ limit < declared := by simp [DeclaresAbove, hn]
    simp only [hdeclared, bodyLimit, Exceeds, hn, Option.getD_some]
    omega

namespace Posts

theorem buffered (h : Posts r q) (hd : ¬DeclaresAbove limit r)
    (hsize : r.body.size ≤ bodyLimit limit r) : Buffered (bodyLimit limit r) limit r q :=
  ⟨⟨hd, h.path_eq, h.method_eq⟩, h.hasJsonContent, hsize⟩

theorem respond_eq_lengthRefusal (h : Posts r q)
    (hlong : DeclaresAbove limit r ∨ bodyLimit limit r < r.body.size) :
    respond limit uptime r l = lengthRefusal limit r l := by
  by_cases hd : DeclaresAbove limit r
  · have hdeclares : declaresTooMuch limit r = true := declaresTooMuch_iff.2 hd
    simp [respond, lengthRefusal, h.path_eq, h.method_eq, serves_post, hdeclares, dropBody]
  · have hdeclares : declaresTooMuch limit r = false := by simpa [← declaresTooMuch_iff] using hd
    have hadmitted : Admitted limit r q := ⟨hd, h.path_eq, h.method_eq⟩
    rw [respond_eq_of_ruling (.bodyLength q hadmitted h.hasJsonContent (hlong.resolve_left hd))]
    simp [lengthRefusal, hdeclares]

theorem status_eq_413_iff (h : Posts r q) :
    (respond limit uptime r l).response.status = 413 ↔
      Exceeds limit r ∨ bufferLimit < r.body.size := by
  rw [← declaresAbove_or_bodyLimit_lt_iff]
  constructor
  · intro hstatus
    by_contra hfits
    obtain ⟨hd, hsize⟩ := not_or.1 hfits
    exact (h.buffered hd (Nat.not_lt.1 hsize)).status_ne (ruling_iff.2 rfl) hstatus
  · intro hlong
    rw [h.respond_eq_lengthRefusal hlong, status_lengthRefusal]

/-- With another body of the same length the request is posted to the same place. -/
theorem withBody (h : Posts r q) (body : ByteArray) : Posts { r with body := body } q :=
  ⟨h.path_eq, h.method_eq, h.hasJsonContent⟩

end Posts

/-- A body within the limit is checked against the declared length and the buffer only. -/
theorem bodyLimit_lt_iff_of_le (hd : ¬DeclaresAbove limit r) (hsize : r.body.size ≤ limit)
    (hle : limit ≤ larger) :
    bodyLimit larger r < r.body.size ↔ bodyLimit limit r < r.body.size := by
  cases hn : r.contentLength? with
  | none =>
    simp only [bodyLimit, hn, Option.getD_none]
    omega
  | some declared =>
    have hdeclared : declared ≤ limit := Nat.not_lt.1 fun hlt => hd ⟨declared, hn, hlt⟩
    simp only [bodyLimit, hn, Option.getD_some]
    omega

theorem DeclaresAbove.of_le (h : DeclaresAbove larger r) (hle : limit ≤ larger) :
    DeclaresAbove limit r := by
  obtain ⟨n, hn, hlt⟩ := h
  exact ⟨n, hn, by omega⟩

theorem respond_eq_of_le (hd : ¬DeclaresAbove limit r) (hsize : r.body.size ≤ limit)
    (hle : limit ≤ larger) : respond larger uptime r l = respond limit uptime r l := by
  have hexpression : expression larger r = expression limit r := by
    simp only [expression, bodyLimit_lt_iff_of_le hd hsize hle]
  have hserve (e : Endpoint) : serve larger uptime e r l = serve limit uptime e r l := by
    simp only [serve, hexpression]
  have hlimit : declaresTooMuch limit r = false := by simpa [← declaresTooMuch_iff] using hd
  have hlarger : declaresTooMuch larger r = false := by
    have hd' : ¬DeclaresAbove larger r := fun h => hd (h.of_le hle)
    simpa [← declaresTooMuch_iff] using hd'
  simp only [respond, hserve, hlimit, hlarger]

end

/-- A posted body is refused for its length exactly when the configured limit, the declared length
or the buffer refuses it. The first two decide alone exactly when they refuse what the buffer
refuses. A refused body leaves no trace: any other of its length gets the same exchange, and nothing
is asked or counted. A body within the limit, one of just that length too, is answered as under a
larger one. -/
theorem refused_exactly_for_length (limit : Nat) (uptime : UInt64) (r : Http.Request) (l : Ledger)
    (q : Inquiry) (h : Posts r q) :
    ((respond limit uptime r l).response.status = 413 ↔
      Exceeds limit r ∨ bufferLimit < r.body.size) ∧
    (((respond limit uptime r l).response.status = 413 ↔ Exceeds limit r) ↔
      (bufferLimit < r.body.size → Exceeds limit r)) ∧
    ((respond limit uptime r l).response.status = 413 →
      respond limit uptime r l = lengthRefusal limit r l ∧
      ∀ body : ByteArray, body.size = r.body.size →
        respond limit uptime { r with body := body } l = lengthRefusal limit r l) ∧
    (¬DeclaresAbove limit r → r.body.size ≤ limit → ∀ larger, limit ≤ larger →
      respond larger uptime r l = respond limit uptime r l) := by
  refine ⟨h.status_eq_413_iff, ?_, ?_, ?_⟩
  · rw [h.status_eq_413_iff]
    exact or_iff_left_iff_imp
  · intro hstatus
    have hlong := declaresAbove_or_bodyLimit_lt_iff.2 (h.status_eq_413_iff.1 hstatus)
    refine ⟨h.respond_eq_lengthRefusal hlong, ?_⟩
    intro body hsize
    have hlong' : DeclaresAbove limit { r with body := body } ∨
        bodyLimit limit { r with body := body } < body.size := by rwa [hsize]
    exact (h.withBody body).respond_eq_lengthRefusal hlong'
  · intro hd hsize larger hle
    exact respond_eq_of_le hd hsize hle

/-- Eighteen octets that are declared to be twenty. -/
def overdeclared : Http.Request where
  method := "POST"
  target := "/extractNumber"
  headers := [("content-type", "application/json"), ("content-length", "20")]
  body := "\x7b\"expression\":\"5\"\x7d".toUTF8

/-- A limit of eighteen refuses the request, and with one of twenty it is answered as with a larger
one. -/
theorem overdeclared_refused_exactly :
    Posts overdeclared .value ∧
    (respond 18 0 overdeclared .empty).response.status = 413 ∧
    respond 18 0 { overdeclared with body := ⟨Array.replicate 18 0⟩ } .empty = refuseLength .empty ∧
    (respond 20 0 overdeclared .empty).response.status ≠ 413 ∧
    respond 65536 0 overdeclared .empty = respond 20 0 overdeclared .empty := by
  have hposts : Posts overdeclared .value := ⟨by decide, rfl, by decide⟩
  have hlength : overdeclared.contentLength? = some 20 := by decide
  have hsize : overdeclared.body.size = 18 := by decide
  obtain ⟨hshort, -, htrace, -⟩ := refused_exactly_for_length 18 0 overdeclared .empty .value hposts
  obtain ⟨hlong, -, -, hwithin⟩ := refused_exactly_for_length 20 0 overdeclared .empty .value hposts
  have hrefused := hshort.2 (.inl (by simp [Exceeds, hlength]))
  refine ⟨hposts, hrefused, ?_, ?_, ?_⟩
  · rw [(htrace hrefused).2 _ (by rw [hsize]; rfl)]
    rfl
  · rw [Ne, hlong, Exceeds, hlength, hsize]
    decide
  · refine hwithin ?_ (by rw [hsize]; decide) 65536 (by decide)
    rintro ⟨n, hn, hlt⟩
    rw [hlength] at hn
    obtain rfl := Option.some.inj hn
    omega

/-- A body of exactly the configured limit is refused when that is above the buffer. -/
theorem paddedRequest_refused_at_its_size :
    paddedRequest.body.size = 18 + bufferLimit ∧ paddedRequest.contentLength? = none ∧
      ¬((respond (18 + bufferLimit) 0 paddedRequest .empty).response.status = 413 ↔
        18 + bufferLimit < paddedRequest.body.size) := by
  refine ⟨paddedRequest_size, paddedRequest_contentLength?, ?_⟩
  have hposts : Posts paddedRequest .value :=
    ⟨paddedRequest_path, rfl, paddedRequest_hasJsonContent⟩
  rw [hposts.status_eq_413_iff, paddedRequest_size]
  omega

end PhraseArithmetic.Server
