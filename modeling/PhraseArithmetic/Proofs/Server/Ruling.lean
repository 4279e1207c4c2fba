import Mathlib.Tactic.ByContra
import PhraseArithmetic.Server

/-!
# The order of the checks

A ruling names the check that decides a request and says what the answer then is. Every rule but
the first assumes that no earlier check applies, so one rule applies to each request. The length
that a body may have is a parameter: a server keeps to the smallest of the configured limit, the
declared length and two mebibytes.
-/
namespace PhraseArithmetic

theorem Endpoint.ofPath?_eq_some_iff {path : String} {e : Endpoint} :
    ofPath? path = some e ↔ path = e.path := by
  constructor
  · intro h
    have hp : (e.path == path) = true := List.find?_some (p := fun x : Endpoint => x.path == path) h
    exact (beq_iff_eq.1 hp).symm
  · rintro rfl
    exact ofPath?_path e

namespace Server

def DeclaresAbove (limit : Nat) (r : Http.Request) : Prop :=
  ∃ n, r.contentLength? = some n ∧ limit < n

/-- The path is one where phrases are asked about. -/
def AsksAt (r : Http.Request) : Prop := r.path = "/extractNumber" ∨ r.path = "/validateExpression"

/-- The path is one where something is read. -/
def ReadsAt (r : Http.Request) : Prop := r.path = "/errorFrequencies" ∨ r.path = "/health"

instance (r : Http.Request) : Decidable (AsksAt r) := inferInstanceAs (Decidable (_ ∨ _))

instance (r : Http.Request) : Decidable (ReadsAt r) := inferInstanceAs (Decidable (_ ∨ _))

abbrev IsRead (r : Http.Request) : Prop := r.method = "GET" ∨ r.method = "HEAD"

/-- The methods that the path serves, if it serves any and not that of the request. -/
def missingMethods (r : Http.Request) : Option String :=
  if AsksAt r ∧ r.method ≠ "POST" then some "POST"
  else if ReadsAt r ∧ ¬IsRead r then some "GET,HEAD"
  else none

/-- A body as a response to the method shows it. -/
def shown (r : Http.Request) (body : String) : String := if r.method = "HEAD" then "" else body

def refusal (r : Http.Request) : Http.Response where
  status := 413
  contentType := some "text/plain; charset=utf-8"
  allow := missingMethods r
  body := if ReadsAt r then shown r "length limit exceeded" else "length limit exceeded"

/-- The request reaches the check of its content type. -/
structure Admitted (limit : Nat) (r : Http.Request) (q : Inquiry) : Prop where
  declared : ¬DeclaresAbove limit r
  path_eq : r.path = q.endpoint.path
  method_eq : r.method = "POST"

/-- The request reaches the decoding of its body. -/
structure Buffered (longest limit : Nat) (r : Http.Request) (q : Inquiry) : Prop extends
    Admitted limit r q where
  hasJsonContent : r.hasJsonContent = true
  size_le : r.body.size ≤ longest

def decoded (r : Http.Request) : Except Wire.Defect Wire.ExpressionRequest :=
  Wire.requestFormat.decodeFirst (Text.octetSymbols r.body)

inductive Ruling (longest limit : Nat) (uptime : UInt64) (r : Http.Request) (l : Ledger) :
    Exchange → Prop where
  | declaredLength (h : DeclaresAbove limit r) : Ruling longest limit uptime r l ⟨refusal r, [], l⟩
  | unknownPath (h : ¬DeclaresAbove limit r) (hp : ¬AsksAt r) (hp' : ¬ReadsAt r) :
      Ruling longest limit uptime r l ⟨⟨404, none, none, ""⟩, [], l⟩
  | unservedMethod (h : ¬DeclaresAbove limit r) (methods : String)
      (hm : missingMethods r = some methods) :
      Ruling longest limit uptime r l ⟨⟨405, none, some methods, ""⟩, [], l⟩
  | listing (h : ¬DeclaresAbove limit r) (hp : r.path = "/errorFrequencies") (hm : IsRead r) :
      Ruling longest limit uptime r l
        ⟨.json 200 (shown r (Wire.recordFormat.encodeList l.snapshot)), [], l⟩
  | report (h : ¬DeclaresAbove limit r) (hp : r.path = "/health") (hm : IsRead r) :
      Ruling longest limit uptime r l
        ⟨.json 200 (shown r (Wire.healthFormat.encode (health uptime l))), [], l⟩
  | contentType (q : Inquiry) (h : Admitted limit r q) (hc : r.hasJsonContent = false) :
      Ruling longest limit uptime r l
        ⟨.plain 400 Rejection.contentType.text, [Rejection.contentType.event], l⟩
  | bodyLength (q : Inquiry) (h : Admitted limit r q) (hc : r.hasJsonContent = true)
      (hl : longest < r.body.size) :
      Ruling longest limit uptime r l
        ⟨.plain 413 Rejection.length.text, [Rejection.length.event], l⟩
  | undecodable (q : Inquiry) (h : Buffered longest limit r q) (d : Wire.Defect)
      (hd : decoded r = .error d) :
      Ruling longest limit uptime r l
        ⟨.plain 400 (Rejection.defect d).text, [(Rejection.defect d).event], l⟩
  | answered (q : Inquiry) (h : Buffered longest limit r q) (m : Wire.ExpressionRequest)
      (hd : decoded r = .ok m) (reply : Reply) (hr : q.ask m.expression l = reply) (a : Answer)
      (ha : reply.result = .ok a) :
      Ruling longest limit uptime r l
        ⟨.json 200 (Wire.responseFormat.encode ⟨a.text⟩),
          reply.log ++ [successEvent m.expression a], reply.ledger⟩
  | failed (q : Inquiry) (h : Buffered longest limit r q) (m : Wire.ExpressionRequest)
      (hd : decoded r = .ok m) (reply : Reply) (hr : q.ask m.expression l = reply) (f : Failure)
      (hf : reply.result = .error f) :
      Ruling longest limit uptime r l
        ⟨.json 400 (Wire.recordFormat.encode f.toRecord), reply.log ++ [failureEvent f],
          reply.ledger⟩

section
variable {longest limit : Nat} {uptime : UInt64} {r : Http.Request} {l : Ledger}

theorem declaresTooMuch_iff : declaresTooMuch limit r = true ↔ DeclaresAbove limit r := by
  simp [declaresTooMuch, DeclaresAbove, Option.any_eq_true]

theorem asksAt_iff : AsksAt r ↔ ∃ q : Inquiry, r.path = q.endpoint.path := by
  constructor
  · rintro (h | h)
    · exact ⟨.value, h⟩
    · exact ⟨.validity, h⟩
  · rintro ⟨q, h⟩
    cases q with
    | value => exact .inl h
    | validity => exact .inr h

theorem exists_ruling (longest limit : Nat) (uptime : UInt64) (r : Http.Request) (l : Ledger) :
    ∃ x, Ruling longest limit uptime r l x := by
  by_cases h : DeclaresAbove limit r
  · exact ⟨_, .declaredLength h⟩
  by_cases hm : ∃ methods, missingMethods r = some methods
  · obtain ⟨methods, hm⟩ := hm
    exact ⟨_, .unservedMethod h methods hm⟩
  have hasked : AsksAt r → r.method = "POST" := by
    intro hp
    by_contra hne
    exact hm ⟨_, if_pos ⟨hp, hne⟩⟩
  by_cases hp : AsksAt r
  · obtain ⟨q, hq⟩ := asksAt_iff.1 hp
    have hadmitted : Admitted limit r q := ⟨h, hq, hasked hp⟩
    cases hc : r.hasJsonContent with
    | false => exact ⟨_, .contentType q hadmitted hc⟩
    | true =>
      by_cases hl : r.body.size ≤ longest
      · have hbuffered : Buffered longest limit r q := ⟨hadmitted, hc, hl⟩
        cases hd : decoded r with
        | error d => exact ⟨_, .undecodable q hbuffered d hd⟩
        | ok m =>
          cases hr : (q.ask m.expression l).result with
          | ok a => exact ⟨_, .answered q hbuffered m hd _ rfl a hr⟩
          | error f => exact ⟨_, .failed q hbuffered m hd _ rfl f hr⟩
      · exact ⟨_, .bodyLength q hadmitted hc (by omega)⟩
  by_cases hp' : ReadsAt r
  · have hread : IsRead r := by
      by_contra hne
      exact hm ⟨_, by rw [missingMethods, if_neg (fun h => hp h.1), if_pos ⟨hp', hne⟩]⟩
    rcases hp' with hp' | hp'
    · exact ⟨_, .listing h hp' hread⟩
    · exact ⟨_, .report h hp' hread⟩
  · exact ⟨_, .unknownPath h hp hp'⟩

theorem asksAt_of_path {e : Endpoint} (h : r.path = e.path) :
    AsksAt r ↔ e = .extractNumber ∨ e = .validateExpression := by
  cases e <;> simp [AsksAt, h, Endpoint.path]

theorem readsAt_of_path {e : Endpoint} (h : r.path = e.path) :
    ReadsAt r ↔ e = .errorFrequencies ∨ e = .health := by
  cases e <;> simp [ReadsAt, h, Endpoint.path]

theorem not_asksAt_of_unknown (h : Endpoint.ofPath? r.path = none) : ¬AsksAt r := by
  intro hp
  obtain ⟨q, hq⟩ := asksAt_iff.1 hp
  simp [hq] at h

theorem not_readsAt_of_unknown (h : Endpoint.ofPath? r.path = none) : ¬ReadsAt r := by
  rintro (hp | hp)
  · simp [hp, show "/errorFrequencies" = Endpoint.errorFrequencies.path from rfl] at h
  · simp [hp, show "/health" = Endpoint.health.path from rfl] at h

theorem missingMethods_of_unknown (h : Endpoint.ofPath? r.path = none) :
    missingMethods r = none := by
  simp [missingMethods, not_asksAt_of_unknown h, not_readsAt_of_unknown h]

theorem missingMethods_of_path {e : Endpoint} (h : r.path = e.path) :
    missingMethods r = if e.serves r.method then none else some e.allowHeader := by
  have hpost : Endpoint.allowHeader .extractNumber = "POST" ∧
      Endpoint.allowHeader .validateExpression = "POST" := by decide
  have hget : Endpoint.allowHeader .errorFrequencies = "GET,HEAD" ∧
      Endpoint.allowHeader .health = "GET,HEAD" := by decide
  simp only [missingMethods, asksAt_of_path h, readsAt_of_path h]
  cases e <;>
    simp [hpost, hget, Endpoint.serves, Endpoint.allowed, Endpoint.action, IsRead, -not_or]

theorem serves_of_readsAt {e : Endpoint} (h : r.path = e.path) (hr : ReadsAt r) :
    e.serves r.method = true ↔ IsRead r := by
  rcases (readsAt_of_path h).1 hr with rfl | rfl <;>
    simp [Endpoint.serves, Endpoint.allowed, Endpoint.action, IsRead]

theorem serves_of_not_readsAt {e : Endpoint} (h : r.path = e.path) (hr : ¬ReadsAt r) :
    e.serves r.method = true ↔ r.method = "POST" := by
  rw [readsAt_of_path h] at hr
  cases e <;> simp_all [Endpoint.serves, Endpoint.allowed, Endpoint.action]

theorem dropBody_eq (x : Exchange) :
    dropBody r x = { x with response := { x.response with body := shown r x.response.body } } := by
  unfold dropBody shown
  split <;> rfl

theorem shown_of_ne {body : String} (h : r.method ≠ "HEAD") : shown r body = body := if_neg h

theorem respond_refused (h : declaresTooMuch limit r = true) :
    respond limit uptime r l = ⟨refusal r, [], l⟩ := by
  cases hp : Endpoint.ofPath? r.path with
  | none =>
    have hm := missingMethods_of_unknown hp
    have hreads := not_readsAt_of_unknown hp
    simp [respond, hp, h, refuseLength, refusal, hm, hreads, Http.Response.plain]
  | some e =>
    have hpath := Endpoint.ofPath?_eq_some_iff.1 hp
    have hm := missingMethods_of_path hpath
    cases hs : e.serves r.method with
    | false =>
      have hbody (hr : ReadsAt r) : shown r "length limit exceeded" = "length limit exceeded" := by
        have hread : ¬IsRead r := by simp [← serves_of_readsAt hpath hr, hs]
        exact shown_of_ne fun hhead => hread (.inr hhead)
      by_cases hr : ReadsAt r <;>
        simp [respond, hp, h, hs, refuseLength, refusal, hm, hr, hbody, Http.Response.plain]
    | true =>
      have hbody (hr : ¬ReadsAt r) : shown r "length limit exceeded" = "length limit exceeded" :=
        shown_of_ne (by simp [(serves_of_not_readsAt hpath hr).1 hs])
      by_cases hr : ReadsAt r <;>
        simp [respond, hp, h, hs, refuseLength, refusal, hm, hr, hbody, dropBody_eq,
          Http.Response.plain]

theorem respond_unknown (h : ¬DeclaresAbove limit r) (hp : ¬AsksAt r) (hp' : ¬ReadsAt r) :
    respond limit uptime r l = ⟨⟨404, none, none, ""⟩, [], l⟩ := by
  have hd : declaresTooMuch limit r = false := by simpa [← declaresTooMuch_iff] using h
  cases he : Endpoint.ofPath? r.path with
  | none => simp [respond, he, hd, Http.Response.empty]
  | some e =>
    have hpath := Endpoint.ofPath?_eq_some_iff.1 he
    rw [asksAt_of_path hpath] at hp
    rw [readsAt_of_path hpath] at hp'
    cases e <;> simp at hp hp'

theorem respond_unserved (h : ¬DeclaresAbove limit r) {methods : String}
    (hm : missingMethods r = some methods) :
    respond limit uptime r l = ⟨⟨405, none, some methods, ""⟩, [], l⟩ := by
  have hd : declaresTooMuch limit r = false := by simpa [← declaresTooMuch_iff] using h
  cases he : Endpoint.ofPath? r.path with
  | none => simp [missingMethods_of_unknown he] at hm
  | some e =>
    rw [missingMethods_of_path (Endpoint.ofPath?_eq_some_iff.1 he)] at hm
    cases hs : e.serves r.method with
    | true => simp [hs] at hm
    | false =>
      obtain rfl : e.allowHeader = methods := by simpa [hs] using hm
      simp [respond, he, hd, hs, Http.Response.empty]

theorem respond_served (h : ¬DeclaresAbove limit r) {e : Endpoint} (hp : r.path = e.path)
    (hs : e.serves r.method = true) :
    respond limit uptime r l = dropBody r (serve limit uptime e r l) := by
  have hd : declaresTooMuch limit r = false := by simpa [← declaresTooMuch_iff] using h
  simp [respond, hp, hd, hs]

theorem serves_post (q : Inquiry) : q.endpoint.serves "POST" = true := by cases q <;> decide

theorem Admitted.respond_eq {q : Inquiry} (h : Admitted limit r q) :
    respond limit uptime r l =
      match expression limit r with
      | .ok phrase => inquire q phrase l
      | .error rejection => ⟨rejection.response, [rejection.event], l⟩ := by
  have hs : q.endpoint.serves r.method = true := by
    rw [h.method_eq]
    exact serves_post q
  have haction : q.endpoint.action = .ask q := by cases q <;> rfl
  rw [respond_served h.declared h.path_eq hs, dropBody, if_neg (by simp [h.method_eq])]
  cases he : expression limit r <;> simp only [serve, haction, he]

theorem Buffered.expression_eq {q : Inquiry} (h : Buffered (bodyLimit limit r) limit r q) :
    expression limit r =
      match decoded r with
      | .ok m => .ok m.expression
      | .error d => .error (.defect d) := by
  have hsize : ¬bodyLimit limit r < r.body.size := Nat.not_lt.2 h.size_le
  cases hd : decoded r <;> rw [decoded] at hd <;>
    simp only [expression, h.hasJsonContent, Bool.not_true, Bool.false_eq_true, if_false,
      if_neg hsize, hd]

theorem respond_eq_of_ruling {x : Exchange}
    (h : Ruling (bodyLimit limit r) limit uptime r l x) : respond limit uptime r l = x := by
  cases h with
  | declaredLength h => exact respond_refused (declaresTooMuch_iff.2 h)
  | unknownPath h hp hp' => exact respond_unknown h hp hp'
  | unservedMethod h methods hm => exact respond_unserved h hm
  | listing h hp hm =>
    rw [respond_served (e := .errorFrequencies) h hp
      ((serves_of_readsAt (e := .errorFrequencies) hp (.inl hp)).2 hm), dropBody_eq]
    rfl
  | report h hp hm =>
    rw [respond_served (e := .health) h hp
      ((serves_of_readsAt (e := .health) hp (.inr hp)).2 hm), dropBody_eq]
    rfl
  | contentType q h hc => simp [h.respond_eq, expression, hc, Rejection.response, Rejection.status]
  | bodyLength q h hc hl =>
    simp [h.respond_eq, expression, hc, hl, Rejection.response, Rejection.status]
  | undecodable q h d hd =>
    simp [h.respond_eq, h.expression_eq, hd, Rejection.response, Rejection.status]
  | answered q h m hd reply hr a ha =>
    subst hr
    simp [h.respond_eq, h.expression_eq, hd, inquire, ha]
  | failed q h m hd reply hr f hf =>
    subst hr
    simp [h.respond_eq, h.expression_eq, hd, inquire, hf]

theorem ruling_iff {x : Exchange} :
    Ruling (bodyLimit limit r) limit uptime r l x ↔ respond limit uptime r l = x := by
  constructor
  · exact respond_eq_of_ruling
  · rintro rfl
    obtain ⟨x, hx⟩ := exists_ruling (bodyLimit limit r) limit uptime r l
    rwa [respond_eq_of_ruling hx]

end
end Server
end PhraseArithmetic
