import PhraseArithmetic.Proofs.Server.Ruling

/-!
# The configured limit and the buffer

The chain of checks with the configured limit in it decides every request, except where a body is
within that limit and still longer than the buffer. Such a body is refused for its length.
-/
namespace PhraseArithmetic.Server

/-- The longest body that the configured limit and the declared length allow. -/
def configuredLimit (limit : Nat) (r : Http.Request) : Nat :=
  min limit (r.contentLength?.getD limit)

/-- The request reaches the check of its body, which is within its limit and not within the buffer. -/
structure Overflows (limit : Nat) (r : Http.Request) (q : Inquiry) : Prop extends
    Admitted limit r q where
  hasJsonContent : r.hasJsonContent = true
  buffer_lt : bufferLimit < r.body.size
  size_le : r.body.size ≤ configuredLimit limit r

section
variable {longest longest' limit : Nat} {uptime : UInt64} {r : Http.Request} {l : Ledger}
  {x : Exchange}

theorem bodyLimit_eq : bodyLimit limit r = min bufferLimit (configuredLimit limit r) := rfl

theorem Buffered.congr {q : Inquiry} (h : Buffered longest limit r q)
    (hsize : r.body.size ≤ longest ↔ r.body.size ≤ longest') : Buffered longest' limit r q :=
  ⟨h.toAdmitted, h.hasJsonContent, hsize.1 h.size_le⟩

/-- Two longest lengths rule alike when the same bodies are within them. -/
theorem Ruling.congr (h : Ruling longest limit uptime r l x)
    (hsize : ∀ q, Admitted limit r q → r.hasJsonContent = true →
      (r.body.size ≤ longest ↔ r.body.size ≤ longest')) :
    Ruling longest' limit uptime r l x := by
  cases h with
  | declaredLength h => exact .declaredLength h
  | unknownPath h hp hp' => exact .unknownPath h hp hp'
  | unservedMethod h methods hm => exact .unservedMethod h methods hm
  | listing h hp hm => exact .listing h hp hm
  | report h hp hm => exact .report h hp hm
  | contentType q h hc => exact .contentType q h hc
  | bodyLength q h hc hl =>
    have hlt := (not_congr (hsize q h hc)).1 (Nat.not_le.2 hl)
    exact .bodyLength q h hc (Nat.not_le.1 hlt)
  | undecodable q h d hd =>
    exact .undecodable q (h.congr (hsize q h.toAdmitted h.hasJsonContent)) d hd
  | answered q h m hd reply hr a ha =>
    exact .answered q (h.congr (hsize q h.toAdmitted h.hasJsonContent)) m hd reply hr a ha
  | failed q h m hd reply hr f hf =>
    exact .failed q (h.congr (hsize q h.toAdmitted h.hasJsonContent)) m hd reply hr f hf

theorem ruling_configuredLimit_iff (h : ∀ q, ¬Overflows limit r q) :
    Ruling (configuredLimit limit r) limit uptime r l x ↔ respond limit uptime r l = x := by
  have hsize (q : Inquiry) (hq : Admitted limit r q) (hc : r.hasJsonContent = true) :
      r.body.size ≤ configuredLimit limit r ↔ r.body.size ≤ bodyLimit limit r := by
    have hover : ¬(bufferLimit < r.body.size ∧ r.body.size ≤ configuredLimit limit r) :=
      fun hs => h q ⟨hq, hc, hs.1, hs.2⟩
    rw [bodyLimit_eq]
    omega
  rw [← ruling_iff]
  constructor
  · intro hr
    exact hr.congr hsize
  · intro hr
    exact hr.congr fun q hq hc => (hsize q hq hc).symm

theorem Overflows.respond_eq {q : Inquiry} (h : Overflows limit r q) :
    respond limit uptime r l =
      ⟨.plain 413 Rejection.length.text, [Rejection.length.event], l⟩ := by
  have hlt : bodyLimit limit r < r.body.size :=
    Nat.lt_of_le_of_lt (Nat.min_le_left _ _) h.buffer_lt
  exact respond_eq_of_ruling (.bodyLength q h.toAdmitted h.hasJsonContent hlt)

/-- Past the first check a body within the longest length is never refused for its length. -/
theorem Buffered.status_ne {q : Inquiry} (h : Buffered longest limit r q)
    (hr : Ruling longest limit uptime r l x) : x.response.status ≠ 413 := by
  cases hr with
  | declaredLength hd => exact absurd hd h.declared
  | bodyLength q' hq hc hl => exact absurd h.size_le (Nat.not_le.2 hl)
  | unknownPath => simp
  | unservedMethod => simp
  | listing => simp [Http.Response.json]
  | report => simp [Http.Response.json]
  | contentType => simp [Http.Response.plain]
  | undecodable => simp [Http.Response.plain]
  | answered => simp [Http.Response.json]
  | failed => simp [Http.Response.json]

theorem Overflows.not_ruling {q : Inquiry} (h : Overflows limit r q) :
    ¬Ruling (configuredLimit limit r) limit uptime r l (respond limit uptime r l) := by
  intro hr
  have hbuffered : Buffered (configuredLimit limit r) limit r q :=
    ⟨h.toAdmitted, h.hasJsonContent, h.size_le⟩
  exact hbuffered.status_ne hr (by rw [h.respond_eq]; rfl)

end

/-- The configured limit decides as the chain says exactly when no body is caught by the buffer. -/
theorem ruling_configuredLimit_iff_not_overflows (limit : Nat) (uptime : UInt64) (r : Http.Request)
    (l : Ledger) :
    ((∀ x, Ruling (configuredLimit limit r) limit uptime r l x ↔ respond limit uptime r l = x) ↔
      ∀ q, ¬Overflows limit r q) ∧
    (∀ q, Overflows limit r q → respond limit uptime r l =
      ⟨.plain 413 Rejection.length.text, [Rejection.length.event], l⟩) ∧
    ∀ x, Ruling (bodyLimit limit r) limit uptime r l x ↔ respond limit uptime r l = x := by
  refine ⟨⟨?_, ?_⟩, ?_, ?_⟩
  · intro h q hq
    exact hq.not_ruling ((h (respond limit uptime r l)).2 rfl)
  · intro h x
    exact ruling_configuredLimit_iff h
  · intro q hq
    exact hq.respond_eq
  · intro x
    exact ruling_iff

/-- An expression with blanks behind it, together longer than the buffer. -/
def paddedRequest : Http.Request where
  method := "POST"
  target := "/extractNumber"
  headers := [("content-type", "application/json")]
  body := "\x7b\"expression\":\"5\"\x7d".toUTF8 ++ ⟨Array.replicate bufferLimit 0x20⟩

theorem paddedRequest_contentLength? : paddedRequest.contentLength? = none := by decide

theorem paddedRequest_size : paddedRequest.body.size = 18 + bufferLimit := by
  have htext : "\x7b\"expression\":\"5\"\x7d".toUTF8.size = 18 := by decide
  have hblanks : (ByteArray.mk (Array.replicate bufferLimit 0x20)).size = bufferLimit := by
    simp [ByteArray.size]
  rw [paddedRequest, ByteArray.size_append, htext, hblanks]

theorem paddedRequest_hasJsonContent : paddedRequest.hasJsonContent = true := by decide

theorem paddedRequest_path : paddedRequest.path = Inquiry.value.endpoint.path := by decide

theorem paddedRequest_overflows : Overflows (4 * 1024 * 1024) paddedRequest .value where
  declared := by
    rintro ⟨n, hn, _⟩
    simp [paddedRequest_contentLength?] at hn
  path_eq := paddedRequest_path
  method_eq := rfl
  hasJsonContent := paddedRequest_hasJsonContent
  buffer_lt := by
    rw [paddedRequest_size]
    omega
  size_le := by
    rw [paddedRequest_size, configuredLimit, paddedRequest_contentLength?]
    decide

/-- A body of a little over two mebibytes is refused under a limit of four. -/
theorem paddedRequest_refused :
    (respond (4 * 1024 * 1024) 0 paddedRequest .empty).response.status = 413 ∧
      ¬Ruling (configuredLimit (4 * 1024 * 1024) paddedRequest) (4 * 1024 * 1024) 0 paddedRequest
        .empty (respond (4 * 1024 * 1024) 0 paddedRequest .empty) := by
  constructor
  · rw [paddedRequest_overflows.respond_eq]
    rfl
  · exact paddedRequest_overflows.not_ruling

end PhraseArithmetic.Server
