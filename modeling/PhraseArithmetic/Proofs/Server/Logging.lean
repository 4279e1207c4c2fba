import PhraseArithmetic.Proofs.Server.Accounting
import PhraseArithmetic.Proofs.Session.Announcements

/-!
# What a run writes to the log

Of a request the log says what the response says: an answer with the expression it is for, a failure
with its record, a rejection with its text. A failure is announced before that if no earlier
response reports one of its kind, so a run announces each kind once. Of other requests the log says
nothing.
-/
namespace PhraseArithmetic

/-- The line of the log for a record that is sent to a client. -/
def Record.warning (r : Record) : Log.Event :=
  let count := Text.decimal r.frequency.toNat
  ⟨.warn, s!"  {r.endpoint} failed: {r.kind} (seen {count} times) for '{r.expression}'"⟩

namespace Server

/-- The line of the log for an answered expression. -/
def answerEvent (r : Http.Request) (phrase answer : String) : Log.Event :=
  ⟨.info, if r.path = "/extractNumber" then s!"  Evaluated '{phrase}' = {answer}"
    else s!"  Validated '{phrase}'"⟩

def rejectionEvent (text : String) : Log.Event := ⟨.warn, s!"  Rejected request body: {text}"⟩

/-- Nothing is asked and no body is read: the declared length is too long, the path or the method is
not served, or the path is one where something is read. -/
def IsQuiet (limit : Nat) (r : Http.Request) (response : Http.Response) : Prop :=
  DeclaresAbove limit r ∨ response.status = 404 ∨ response.status = 405 ∨ ReadsAt r

/-- The whole log of an exchange by its request and its response, where failures of some kinds are
known already. -/
structure LogFits (known : List String) (limit : Nat) (r : Http.Request) (x : Exchange) : Prop where
  quiet : IsQuiet limit r x.response → x.log = []
  answered : AsksAt r → x.response.status = 200 → ∃ m answer, decoded r = .ok m ∧
    Wire.responseFormat.decode (Text.symbols x.response.body.toList) = .ok answer ∧
      x.log = [answerEvent r m.expression answer.response]
  failed : ∀ f, x.response.failure? = some f →
    x.log = (if f.kind ∈ known then [] else [f.announcement]) ++ [f.warning]
  rejected : ¬DeclaresAbove limit r → x.response.contentType = some "text/plain; charset=utf-8" →
    x.log = [rejectionEvent x.response.body]
  exhaustive : IsQuiet limit r x.response ∨ (AsksAt r ∧ x.response.status = 200) ∨
    (∃ f, x.response.failure? = some f) ∨
      x.response.contentType = some "text/plain; charset=utf-8"

section
variable {known : List String} {limit : Nat} {uptime : UInt64} {r : Http.Request} {l : Ledger}
  {q : Inquiry} {x : Exchange}

theorem failure?_of_status {response : Http.Response} (h : response.status ≠ 400) :
    response.failure? = none := by
  simp [Http.Response.failure?, h]

theorem failure?_plain (status : Nat) (body : String) :
    (Http.Response.plain status body).failure? = none := by
  simp [Http.Response.failure?, Http.Response.plain]

theorem Admitted.asksAt (h : Admitted limit r q) : AsksAt r := asksAt_iff.2 ⟨q, h.path_eq⟩

theorem Admitted.not_isQuiet (h : Admitted limit r q) {response : Http.Response}
    (hstatus : response.status = 200 ∨ response.status = 400 ∨ response.status = 413) :
    ¬IsQuiet limit r response := by
  rintro (hd | hs | hs | hr)
  · exact h.declared hd
  · omega
  · omega
  · have hread := (readsAt_of_path h.path_eq).1 hr
    cases q <;> simp [Inquiry.endpoint] at hread

theorem LogFits.of_quiet (hquiet : IsQuiet limit r x.response) (hlog : x.log = [])
    (hstatus : x.response.status ≠ 400) (hanswer : AsksAt r → x.response.status ≠ 200)
    (hplain : x.response.contentType = some "text/plain; charset=utf-8" → DeclaresAbove limit r) :
    LogFits known limit r x where
  quiet _ := hlog
  answered hasks h := absurd h (hanswer hasks)
  failed f hf := by simp [failure?_of_status hstatus] at hf
  rejected hd h := absurd (hplain h) hd
  exhaustive := .inl hquiet

theorem LogFits.of_rejected (h : Admitted limit r q) {status : Nat}
    (hstatus : status = 400 ∨ status = 413) (text : String) :
    LogFits known limit r ⟨.plain status text, [rejectionEvent text], l⟩ where
  quiet hquiet := absurd hquiet (h.not_isQuiet (.inr hstatus))
  answered _ hs := by
    have h200 : status = 200 := hs
    omega
  failed f hf := by simp [failure?_plain] at hf
  rejected _ _ := rfl
  exhaustive := .inr (.inr (.inr rfl))

theorem successEvent_eq {phrase : String} {a : Answer} (hpath : r.path = q.endpoint.path)
    (h : q.judge phrase = .ok a) : successEvent phrase a = answerEvent r phrase a.text := by
  cases q with
  | value =>
    cases he : Token.evaluate (Token.scan phrase) with
    | error fault => simp [Inquiry.judge, he, Except.map] at h
    | ok n =>
      obtain rfl : .number n = a := by simpa [Inquiry.judge, he, Except.map] using h
      have hpath' : r.path = "/extractNumber" := hpath
      rw [answerEvent, if_pos hpath']
      rfl
  | validity =>
    have hpath' : r.path ≠ "/extractNumber" := by
      rw [hpath]
      decide
    cases hv : Token.validate (Token.scan phrase) with
    | error fault => simp [Inquiry.judge, hv, Except.map] at h
    | ok u =>
      obtain rfl : .valid = a := by simpa [Inquiry.judge, hv, Except.map] using h
      rw [answerEvent, if_neg hpath']
      rfl

theorem LogFits.of_answered (h : Admitted limit r q) {m : Wire.ExpressionRequest} {a : Answer}
    (hd : decoded r = .ok m) (hj : q.judge m.expression = .ok a) :
    LogFits known limit r ⟨.json 200 (Wire.responseFormat.encode ⟨a.text⟩),
      [successEvent m.expression a], l⟩ where
  quiet hquiet := absurd hquiet (h.not_isQuiet (.inl rfl))
  answered _ _ := by
    refine ⟨m, ⟨a.text⟩, hd, Wire.responseFormat_isLawful.decode_encode _, ?_⟩
    rw [successEvent_eq h.path_eq hj]
  failed f hf := by simp [failure?_of_status, Http.Response.json] at hf
  rejected _ htype := by simp [Http.Response.json] at htype
  exhaustive := .inr (.inl ⟨h.asksAt, rfl⟩)

theorem LogFits.of_failed (h : Admitted limit r q) (f : Record) :
    LogFits known limit r ⟨.json 400 (Wire.recordFormat.encode f),
      (if f.kind ∈ known then [] else [f.announcement]) ++ [f.warning], l⟩ where
  quiet hquiet := absurd hquiet (h.not_isQuiet (.inr (.inl rfl)))
  answered _ hs := by simp [Http.Response.json] at hs
  failed g hg := by
    rw [Http.Response.failure?_json] at hg
    rw [← Option.some.inj hg]
  rejected _ htype := by simp [Http.Response.json] at htype
  exhaustive := .inr (.inr (.inl ⟨f, Http.Response.failure?_json f⟩))

theorem not_asksAt_of_read {path : String} (hp : r.path = path)
    (hread : path = "/errorFrequencies" ∨ path = "/health") : ¬AsksAt r := by
  rw [AsksAt, hp]
  rcases hread with rfl | rfl <;> decide

/-- Whatever check decides a request, the log fits the response that it gives. -/
theorem Ruling.logFits {longest : Nat} {history : List Record} (hl : l.Reflects history)
    (h : Ruling longest limit uptime r l x) : LogFits (history.map Record.kind) limit r x := by
  cases h with
  | declaredLength hd =>
    exact .of_quiet (.inl hd) rfl (by simp [refusal]) (fun _ => by simp [refusal]) fun _ => hd
  | unknownPath => exact .of_quiet (.inr (.inl rfl)) rfl (by simp) (fun _ => by simp) (by simp)
  | unservedMethod =>
    exact .of_quiet (.inr (.inr (.inl rfl))) rfl (by simp) (fun _ => by simp) (by simp)
  | listing _ hp =>
    have hasks := not_asksAt_of_read hp (.inl rfl)
    exact .of_quiet (.inr (.inr (.inr (.inl hp)))) rfl (by simp [Http.Response.json])
      (fun ha => absurd ha hasks) (by simp [Http.Response.json])
  | report _ hp =>
    have hasks := not_asksAt_of_read hp (.inr rfl)
    exact .of_quiet (.inr (.inr (.inr (.inr hp)))) rfl (by simp [Http.Response.json])
      (fun ha => absurd ha hasks) (by simp [Http.Response.json])
  | contentType q ha => exact .of_rejected ha (.inl rfl) _
  | bodyLength q ha => exact .of_rejected ha (.inr rfl) _
  | undecodable q hb => exact .of_rejected hb.toAdmitted (.inl rfl) _
  | answered q hb m hd reply hr a ha =>
    cases hj : q.judge m.expression with
    | error fault => simp [← hr, Inquiry.ask_of_error hj] at ha
    | ok b =>
      rw [Inquiry.ask_of_ok hj] at hr
      subst hr
      obtain rfl : b = a := by simpa using ha
      exact .of_answered hb.toAdmitted hd hj
  | failed q hb m hd reply hr f hf =>
    cases hj : q.judge m.expression with
    | ok a => simp [← hr, Inquiry.ask_of_ok hj] at hf
    | error fault =>
      rw [Inquiry.ask_of_error hj] at hr
      subst hr
      obtain rfl := Except.error.inj hf
      let o := q.occurrence fault m.expression
      change LogFits _ limit r ⟨.json 400 (Wire.recordFormat.encode (l.recount o)),
        l.announcement o ++ [(l.recount o).warning], l.increment o⟩
      rw [hl.announcement_eq]
      exact .of_failed hb.toAdmitted (l.recount o)

/-- The lines of a log that announce. -/
def announcementsIn (log : List Log.Event) : List Log.Event := log.filter (·.level = .debug)

/-- The ledger that exchanges leave. -/
def ledgerAfter (l : Ledger) (xs : List Exchange) : Ledger := xs.foldl (fun _ x => x.ledger) l

theorem LogFits.announcementsIn_of_none (h : LogFits known limit r x)
    (hx : x.response.failure? = none) : announcementsIn x.log = [] := by
  by_cases hquiet : IsQuiet limit r x.response
  · rw [h.quiet hquiet]
    rfl
  rcases h.exhaustive with hq | ⟨hasks, hstatus⟩ | ⟨f, hf⟩ | htype
  · exact absurd hq hquiet
  · obtain ⟨m, answer, -, -, hlog⟩ := h.answered hasks hstatus
    rw [hlog]
    rfl
  · simp [hx] at hf
  · rw [h.rejected (fun hd => hquiet (.inl hd)) htype]
    rfl

theorem LogFits.announcementsIn_of_some (h : LogFits known limit r x) {f : Record}
    (hf : x.response.failure? = some f) :
    announcementsIn x.log = if f.kind ∈ known then [] else [f.announcement] := by
  rw [h.failed f hf]
  by_cases hkind : f.kind ∈ known
  · rw [if_pos hkind]
    rfl
  · rw [if_neg hkind]
    rfl

theorem announced_respond (limit : Nat) (uptime : UInt64) (r : Http.Request)
    {history : List Record} {lines : List Log.Event} (h : l.Announced history lines) :
    (respond limit uptime r l).ledger.Announced
      (history ++ failures [(respond limit uptime r l).response])
      (lines ++ announcementsIn (respond limit uptime r l).log) := by
  have hfits : LogFits (history.map Record.kind) limit r (respond limit uptime r l) :=
    (ruling_iff.2 rfl).logFits h.reflects
  rcases (counts_respond : Counts l (respond limit uptime r l)) with
    ⟨hnone, hledger⟩ | ⟨o, hresponse, hledger⟩
  · have hfailure : (respond limit uptime r l).response.failure? = none := by
      simp [Http.Response.failure?, hnone]
    rw [hfits.announcementsIn_of_none hfailure, hledger]
    simpa [failures, hfailure] using h
  · have hfailure : (respond limit uptime r l).response.failure? = some (l.recount o) := by
      rw [hresponse, Http.Response.failure?_json]
    have hlines : announcementsIn (respond limit uptime r l).log = l.announcement o := by
      rw [hfits.announcementsIn_of_some hfailure, h.reflects.announcement_eq]
      rfl
    rw [hlines, hledger]
    simpa [failures, hfailure] using h.increment o

theorem failures_cons (response : Http.Response) (responses : List Http.Response) :
    failures (response :: responses) = failures [response] ++ failures responses := by
  rw [failures, failures, failures, ← List.filterMap_append, List.singleton_append]

theorem announced_exchanges {history : List Record} {lines : List Log.Event}
    (h : l.Announced history lines) (arrivals : List Arrival) :
    (ledgerAfter l (exchanges limit l arrivals)).Announced
      (history ++ failures ((exchanges limit l arrivals).map Exchange.response))
      (lines ++ announcementsIn ((exchanges limit l arrivals).flatMap Exchange.log)) := by
  induction arrivals generalizing l history lines with
  | nil => simpa [exchanges, failures, announcementsIn, ledgerAfter] using h
  | cons a arrivals ih =>
    have hrest := ih (announced_respond limit a.uptime a.request h)
    rw [List.append_assoc, List.append_assoc] at hrest
    rw [exchanges, List.map_cons, failures_cons]
    simpa [announcementsIn, ledgerAfter] using hrest

end

/-- Each request of a run finds the log that fits its response and the responses before it. Over the
whole run each kind that the ledger holds is announced once, where it failed first. -/
structure LogTold (limit : Nat) (arrivals : List Arrival) (xs : List Exchange) : Prop where
  each : ∀ i a, arrivals[i]? = some a → ∃ x, xs[i]? = some x ∧
    LogFits ((failures ((xs.take i).map Exchange.response)).map Record.kind) limit a.request x ∧
    ∀ f, x.response.failure? = some f → i + 1 < UInt64.size →
      (f.frequency = 1 ↔ f.kind ∉ (failures ((xs.take i).map Exchange.response)).map Record.kind)
  exists_firsts : ∃ firsts, AreFirsts (failures (xs.map Exchange.response)) firsts ∧
    announcementsIn (xs.flatMap Exchange.log) = firsts.map Record.announcement ∧
      ∀ kind, kind ∈ firsts.map Record.kind ↔ ((ledgerAfter .empty xs).get? kind).isSome = true

theorem logTold (limit : Nat) (arrivals : List Arrival) :
    LogTold limit arrivals (exchanges limit .empty arrivals) where
  each i a ha := by
    obtain ⟨l, hx, hl⟩ := exists_reflects_getElem? Ledger.reflects_empty ha
    rw [List.nil_append] at hl
    refine ⟨_, hx, (ruling_iff.2 rfl).logFits hl, fun f hf hi => ?_⟩
    have hlength : (failures (((exchanges limit .empty arrivals).take i).map
        Exchange.response)).length ≤ i := by
      refine Nat.le_trans (List.length_filterMap_le _ _) ?_
      rw [List.length_map]
      exact List.length_take_le _ _
    rcases (counts_respond : Counts l (respond limit a.uptime a.request l)) with
      ⟨hnone, -⟩ | ⟨o, hresponse, -⟩
    · simp [Http.Response.failure?, hnone] at hf
    · rw [hresponse, Http.Response.failure?_json] at hf
      obtain rfl := Option.some.inj hf
      rw [hl.frequency_recount_eq_one_iff (by omega), ← Option.not_isSome_iff_eq_none,
        hl.isSome_iff]
      rfl
  exists_firsts := by
    obtain ⟨hreflects, firsts, hfirsts, hlines⟩ :=
      announced_exchanges Ledger.announced_empty arrivals
    rw [List.nil_append] at hreflects hfirsts hlines
    refine ⟨firsts, hfirsts, hlines, fun kind => ?_⟩
    rw [hfirsts.mem_kinds_iff]
    exact (hreflects.isSome_iff kind).symm

/-- Of every session and of every run of requests the log says what was counted and answered, and
nothing else: a first occurrence is announced, once for each kind that a ledger holds, and each
request of a run has the lines that its response calls for. -/
theorem log_tells_runs :
    (∀ steps observations, Session.start.run steps = some observations →
      Session.LogTold steps observations) ∧
    ∀ limit arrivals, LogTold limit arrivals (exchanges limit .empty arrivals) := by
  constructor
  · intro steps observations h
    exact Session.logTold h
  · exact logTold

/-- One kind counted on two ledgers is announced twice, and failing twice it is announced once. -/
theorem twoGroups_and_divisions_told :
    (∃ observations, Session.start.run Session.twoGroups = some observations ∧
      recordsOf observations = [⟨"1", "here", 1, "kind"⟩, ⟨"2", "here", 2, "kind"⟩,
        ⟨"3", "there", 1, "kind"⟩] ∧
      linesOf observations = [⟨.debug, "First occurrence of error kind 'kind' on here"⟩,
        ⟨.debug, "First occurrence of error kind 'kind' on there"⟩] ∧
      Session.LogTold Session.twoGroups observations) ∧
    (exchanges 65536 .empty divisions).map Exchange.log =
      [[⟨.debug, "First occurrence of error kind 'division by zero' on /extractNumber"⟩,
        ⟨.warn, "  /extractNumber failed: division by zero (seen 1 times) for '1 divided 0'"⟩],
       [⟨.warn, "  /extractNumber failed: division by zero (seen 2 times) for '2 divided 0'"⟩],
       []] ∧
    LogTold 65536 divisions (exchanges 65536 .empty divisions) := by
  obtain ⟨hsessions, hrequests⟩ := log_tells_runs
  exact ⟨⟨_, rfl, by decide, by decide, hsessions _ _ rfl⟩, by decide +kernel, hrequests _ _⟩

end Server
end PhraseArithmetic
