import PhraseArithmetic.Proofs.Ledger.History
import PhraseArithmetic.Proofs.Server.Ruling
import PhraseArithmetic.Wire.Written

/-!
# What clients can count

A client that keeps the responses of a server can foretell the counts in later ones: the frequency
in a failure, the totals in a health report and every octet of a listing follow from the failures
among the responses seen so far.
-/
namespace PhraseArithmetic

namespace Wire.Format

variable {α : Type} {f : Format α}

theorem encodeList_eq (messages : List α) :
    f.encodeList messages = "[" ++ ",".intercalate (messages.map f.encode) ++ "]" := by
  apply String.toList_inj.1
  simp [encodeList, String.toList_intercalate, encode, Function.comp_def]

end Wire.Format

namespace Http.Response

/-- The record that a response reports if it is a failure, that is, status 400 and a JSON body. -/
def failure? (response : Response) : Option Record :=
  if response.status = 400 ∧ response.contentType = some "application/json" then
    (Wire.recordFormat.decode (Text.symbols response.body.toList)).toOption
  else none

@[simp] theorem failure?_json (r : Record) :
    (json 400 (Wire.recordFormat.encode r)).failure? = some r := by
  simp [failure?, json, Wire.recordFormat_isLawful.decode_encode, Except.toOption]

end Http.Response

namespace Server

def failures (responses : List Http.Response) : List Record :=
  responses.filterMap Http.Response.failure?

/-- The body of the most recent failure of a kind. -/
def latestBody? (responses : List Http.Response) (kind : String) : Option String :=
  (responses.reverse.find? fun x => x.failure?.any (·.kind == kind)).map Http.Response.body

/-- What a response says about failures, given all responses before it. -/
structure Accounts (earlier : List Http.Response) (request : Http.Request)
    (response : Http.Response) : Prop where
  reports : response.status = 400 → response.contentType = some "application/json" →
    ∃ r, response.failure? = some r
  frequency : ∀ r, response.failure? = some r →
    r.frequency.toNat = 1 + (failures earlier).countP (·.kind == r.kind)
  health : request.method = "GET" → request.path = "/health" → response.status = 200 →
    ∃ h, Wire.healthFormat.decode (Text.symbols response.body.toList) = .ok h ∧
      h.trackedErrorKinds.toNat = ((failures earlier).map Record.kind).dedup.length ∧
        h.totalFailures.toNat = (failures earlier).length
  listing : request.method = "GET" → request.path = "/errorFrequencies" → response.status = 200 →
    ∃ kinds bodies : List String,
      (kinds.Pairwise fun a b => Text.octets a < Text.octets b) ∧
        (∀ kind, kind ∈ kinds ↔ ∃ r ∈ failures earlier, r.kind = kind) ∧
          kinds.map (latestBody? earlier) = bodies.map some ∧
            response.body = "[" ++ ",".intercalate bodies ++ "]"

/-- An exchange that counts an occurrence or leaves the ledger as it was and reports no failure. -/
def Counts (l : Ledger) (x : Exchange) : Prop :=
  (¬(x.response.status = 400 ∧ x.response.contentType = some "application/json") ∧ x.ledger = l) ∨
    ∃ o, x.response = .json 400 (Wire.recordFormat.encode (l.recount o)) ∧ x.ledger = l.increment o

theorem Ruling.counts {longest limit : Nat} {uptime : UInt64} {r : Http.Request} {l : Ledger}
    {x : Exchange} (h : Ruling longest limit uptime r l x) : Counts l x := by
  cases h with
  | failed q h m hd reply hr f hf =>
    cases hj : q.judge m.expression with
    | ok a =>
      rw [Inquiry.ask_of_ok hj] at hr
      simp [← hr] at hf
    | error fault =>
      rw [Inquiry.ask_of_error hj] at hr
      subst hr
      obtain rfl := Except.error.inj hf
      exact .inr ⟨q.occurrence fault m.expression, rfl, rfl⟩
  | answered q h m hd reply hr a ha =>
    cases hj : q.judge m.expression with
    | ok b =>
      rw [Inquiry.ask_of_ok hj] at hr
      subst hr
      exact .inl ⟨by simp [Http.Response.json], rfl⟩
    | error fault =>
      rw [Inquiry.ask_of_error hj] at hr
      simp [← hr] at ha
  | declaredLength => exact .inl ⟨by simp [refusal], rfl⟩
  | unknownPath => exact .inl ⟨by simp, rfl⟩
  | unservedMethod => exact .inl ⟨by simp, rfl⟩
  | listing => exact .inl ⟨by simp [Http.Response.json], rfl⟩
  | report => exact .inl ⟨by simp [Http.Response.json], rfl⟩
  | contentType => exact .inl ⟨by simp [Http.Response.plain], rfl⟩
  | bodyLength => exact .inl ⟨by simp [Http.Response.plain], rfl⟩
  | undecodable => exact .inl ⟨by simp [Http.Response.plain], rfl⟩

section
variable {limit : Nat} {uptime : UInt64} {r : Http.Request} {l : Ledger}

theorem counts_respond : Counts l (respond limit uptime r l) := (ruling_iff.2 rfl).counts

/-- The failures of an exchange, none or one, follow the history of the ledger. -/
theorem Counts.reflects {x : Exchange} (h : Counts l x) {history : List Record}
    (hl : l.Reflects history) : x.ledger.Reflects (history ++ failures [x.response]) := by
  rcases h with ⟨hnone, hledger⟩ | ⟨o, hresponse, hledger⟩
  · have hfailure : x.response.failure? = none := by simp [Http.Response.failure?, hnone]
    simpa [failures, hfailure, hledger] using hl
  · simpa [failures, hresponse, hledger] using hl.increment o

theorem Counts.body_eq {x : Exchange} (h : Counts l x) {s : Record}
    (hs : x.response.failure? = some s) : x.response.body = Wire.recordFormat.encode s := by
  rcases h with ⟨hnone, -⟩ | ⟨o, hresponse, -⟩
  · simp [Http.Response.failure?, hnone] at hs
  · rw [hresponse, Http.Response.failure?_json] at hs
    rw [hresponse, ← Option.some.inj hs]
    rfl

theorem response_of_get (hm : r.method = "GET")
    (hs : (respond limit uptime r l).response.status = 200) :
    (r.path = "/health" → (respond limit uptime r l).response =
      .json 200 (Wire.healthFormat.encode (health uptime l))) ∧
    (r.path = "/errorFrequencies" → (respond limit uptime r l).response =
      .json 200 (Wire.recordFormat.encodeList l.snapshot)) := by
  have hdeclared : ¬DeclaresAbove limit r := by
    intro h
    rw [respond_eq_of_ruling (.declaredLength h)] at hs
    simp [refusal] at hs
  constructor
  · intro hp
    rw [respond_eq_of_ruling (.report hdeclared hp (.inl hm)), shown_of_ne (by simp [hm])]
  · intro hp
    rw [respond_eq_of_ruling (.listing hdeclared hp (.inl hm)), shown_of_ne (by simp [hm])]

/-- The exchange in a place of a run is that of its request with a ledger that reflects the failures
before it. -/
theorem exists_reflects_getElem? {history : List Record} (hl : l.Reflects history)
    {arrivals : List Arrival} {i : Nat} {a : Arrival} (ha : arrivals[i]? = some a) :
    ∃ l' : Ledger, (exchanges limit l arrivals)[i]? = some (respond limit a.uptime a.request l') ∧
      l'.Reflects
        (history ++ failures (((exchanges limit l arrivals).take i).map Exchange.response)) := by
  induction arrivals generalizing l history i with
  | nil => simp at ha
  | cons b arrivals ih =>
    cases i with
    | zero =>
      obtain rfl : b = a := by simpa using ha
      exact ⟨l, rfl, by simpa [failures] using hl⟩
    | succ i =>
      have hstep : Counts l (respond limit b.uptime b.request l) := counts_respond
      obtain ⟨l', hx, hl'⟩ := ih (hstep.reflects hl) (by simpa using ha)
      refine ⟨l', by simpa [exchanges] using hx, ?_⟩
      rw [List.append_assoc] at hl'
      simpa [exchanges, failures, ← List.filterMap_append] using hl'

theorem body_eq_of_mem_exchanges {arrivals : List Arrival} {x : Exchange}
    (hx : x ∈ exchanges limit l arrivals) {s : Record} (hs : x.response.failure? = some s) :
    x.response.body = Wire.recordFormat.encode s := by
  induction arrivals generalizing l with
  | nil => simp [exchanges] at hx
  | cons a arrivals ih =>
    rcases List.mem_cons.1 hx with rfl | hx
    · exact counts_respond.body_eq hs
    · exact ih hx

theorem latestBody?_eq {earlier : List Http.Response} {s : Record}
    (hbodies : ∀ x ∈ earlier, ∀ t, x.failure? = some t → x.body = Wire.recordFormat.encode t)
    (hs : (failures earlier).reverse.find? (·.kind == s.kind) = some s) :
    latestBody? earlier s.kind = some (Wire.recordFormat.encode s) := by
  rw [failures, ← List.filterMap_reverse, List.find?_filterMap, Option.bind_eq_some_iff] at hs
  obtain ⟨x, hx, hxs⟩ := hs
  have hmem : x ∈ earlier := List.mem_reverse.1 (List.mem_of_find?_eq_some hx)
  rw [latestBody?, hx, Option.map_some, hbodies x hmem s hxs]

theorem accounts_respond {earlier : List Http.Response} (hl : l.Reflects (failures earlier))
    (hbodies : ∀ x ∈ earlier, ∀ s, x.failure? = some s → x.body = Wire.recordFormat.encode s)
    (hlength : earlier.length + 1 < UInt64.size) :
    Accounts earlier r (respond limit uptime r l).response where
  reports hstatus htype := by
    rcases (counts_respond : Counts l (respond limit uptime r l)) with ⟨hnone, -⟩ | ⟨o, ho, -⟩
    · exact absurd ⟨hstatus, htype⟩ hnone
    · exact ⟨l.recount o, by rw [ho, Http.Response.failure?_json]⟩
  frequency s hs := by
    rcases (counts_respond : Counts l (respond limit uptime r l)) with ⟨hnone, -⟩ | ⟨o, ho, -⟩
    · simp [Http.Response.failure?, hnone] at hs
    · rw [ho, Http.Response.failure?_json] at hs
      obtain rfl := Option.some.inj hs
      have hle : (failures earlier).countP (·.kind == o.kind) ≤ earlier.length :=
        Nat.le_trans List.countP_le_length (List.length_filterMap_le _ _)
      have hcount : (failures earlier).countP (·.kind == o.kind) + 1 < UInt64.size :=
        Nat.lt_of_le_of_lt (Nat.succ_le_succ hle) hlength
      rw [hl.frequency_recount o, UInt64.toNat_ofNat', Nat.mod_eq_of_lt hcount, Nat.add_comm]
      rfl
  health hm hp hs := by
    have hlength : (failures earlier).length < UInt64.size :=
      Nat.lt_of_le_of_lt (List.length_filterMap_le _ _) (Nat.lt_of_succ_lt hlength)
    have hkinds : ((failures earlier).map Record.kind).dedup.length < UInt64.size := by
      refine Nat.lt_of_le_of_lt (List.dedup_sublist _).length_le ?_
      rwa [List.length_map]
    refine ⟨Server.health uptime l, ?_, ?_, ?_⟩
    · rw [(response_of_get hm hs).1 hp]
      exact Wire.healthFormat_isLawful.decode_encode _
    · rw [Server.health, UInt64.toNat_ofNat', hl.len_eq, Nat.mod_eq_of_lt hkinds]
    · rw [Server.health, hl.total_eq, UInt64.toNat_ofNat', Nat.mod_eq_of_lt hlength]
  listing hm hp hs := by
    refine ⟨l.snapshot.map Record.kind, l.snapshot.map Wire.recordFormat.encode,
      Ledger.pairwise_snapshot hl.nodup, hl.mem_snapshot_kinds_iff, ?_, ?_⟩
    · rw [List.map_map, List.map_map]
      apply List.map_congr_left
      intro s hmem
      exact latestBody?_eq hbodies (hl.find?_of_mem_snapshot hmem)
    · rw [(response_of_get hm hs).2 hp, ← Wire.Format.encodeList_eq]
      rfl

end

/-- In every run from an empty ledger each request has a response, and it accounts for the failures
before it. -/
theorem exchanges_account (limit : Nat) (arrivals : List Arrival)
    (hlength : arrivals.length < UInt64.size) (i : Nat) (a : Arrival) (ha : arrivals[i]? = some a) :
    ∃ x, (exchanges limit .empty arrivals)[i]? = some x ∧
      Accounts (((exchanges limit .empty arrivals).take i).map Exchange.response) a.request
        x.response := by
  obtain ⟨l, hx, hreflects⟩ := exists_reflects_getElem? Ledger.reflects_empty ha
  have hi : i < arrivals.length := (List.getElem?_eq_some_iff.1 ha).1
  refine ⟨_, hx, accounts_respond (by simpa using hreflects) ?_ ?_⟩
  · intro y hy s hs
    obtain ⟨z, hz, rfl⟩ := List.mem_map.1 hy
    exact body_eq_of_mem_exchanges (List.mem_of_mem_take hz) hs
  · have hle := List.length_take_le i (exchanges limit .empty arrivals)
    rw [List.length_map]
    omega

/-- Two divisions by zero and a listing. -/
def divisions : List Arrival :=
  let ask (body : String) : Arrival :=
    ⟨⟨"POST", "/extractNumber", [("content-type", "application/json")], body.toUTF8⟩, 0⟩
  [ask "\x7b\"expression\":\"1 divided 0\"\x7d", ask "\x7b\"expression\":\"2 divided 0\"\x7d",
    ⟨⟨"GET", "/errorFrequencies", [], .empty⟩, 1⟩]

theorem divisions_account :
    (exchanges 65536 .empty divisions)[2]?.map (·.response.body) =
        some ("[\x7b\"expression\":\"2 divided 0\",\"endpoint\":\"/extractNumber\"," ++
          "\"frequency\":2,\"type\":\"division by zero\"\x7d]") ∧
      ∃ x, (exchanges 65536 .empty divisions)[2]? = some x ∧
        Accounts (((exchanges 65536 .empty divisions).take 2).map Exchange.response)
          ⟨"GET", "/errorFrequencies", [], .empty⟩ x.response :=
  ⟨by decide +kernel, exchanges_account 65536 divisions (by decide) 2 _ rfl⟩

end Server
end PhraseArithmetic
