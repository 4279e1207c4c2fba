import Mathlib.Data.Finset.Insert
import PhraseArithmetic.Proofs.Server.Accounting

/-!
# Requests that leave no trace

A request that is not classified as a failure leaves the ledger as it was. Such requests can be
taken out of a run, and the others keep their responses and their lines of the log. The time at
which a request comes shows only as the uptime in a health report.
-/
namespace PhraseArithmetic

/-- A list that is numbered from `start` on, without the entries in some positions. -/
def withoutFrom {α : Type} (start : ℕ) (positions : Finset ℕ) (xs : List α) : List α :=
  ((xs.zipIdx start).filter fun p => p.2 ∉ positions).map Prod.fst

def without {α : Type} (positions : Finset ℕ) (xs : List α) : List α := withoutFrom 0 positions xs

theorem withoutFrom_cons_of_mem {α : Type} {start : ℕ} {positions : Finset ℕ}
    (h : start ∈ positions) (x : α) (xs : List α) :
    withoutFrom start positions (x :: xs) = withoutFrom (start + 1) positions xs := by
  simp [withoutFrom, h]

theorem withoutFrom_cons_of_notMem {α : Type} {start : ℕ} {positions : Finset ℕ}
    (h : start ∉ positions) (x : α) (xs : List α) :
    withoutFrom start positions (x :: xs) = x :: withoutFrom (start + 1) positions xs := by
  simp [withoutFrom, h]

/-- The request was classified as a failure. -/
def Http.Response.IsFailure (x : Http.Response) : Prop :=
  x.status = 400 ∧ x.contentType = some "application/json"

instance (x : Http.Response) : Decidable x.IsFailure := inferInstanceAs (Decidable (_ ∧ _))

/-- Two bodies are the same or two health reports that differ in nothing but their uptimes. -/
def SameButUptime (a b : String) : Prop :=
  a = b ∨ ∃ (h : Wire.Health) (uptime : UInt64),
    a = Wire.healthFormat.encode h ∧
      b = Wire.healthFormat.encode { h with uptimeSeconds := uptime }

namespace Exchange

/-- Two exchanges that differ in nothing but the uptime of a health report. -/
structure Resembles (x y : Exchange) : Prop where
  status_eq : x.response.status = y.response.status
  contentType_eq : x.response.contentType = y.response.contentType
  allow_eq : x.response.allow = y.response.allow
  body : SameButUptime x.response.body y.response.body
  log_eq : x.log = y.log
  ledger_eq : x.ledger = y.ledger

theorem Resembles.refl (x : Exchange) : x.Resembles x := ⟨rfl, rfl, rfl, .inl rfl, rfl, rfl⟩

theorem resembles_json {a b : String} (h : SameButUptime a b) (status : ℕ) (log : List Log.Event)
    (l : Ledger) : Resembles ⟨.json status a, log, l⟩ ⟨.json status b, log, l⟩ :=
  ⟨rfl, rfl, rfl, h, rfl, rfl⟩

end Exchange

namespace Server

section
variable {longest limit start : ℕ} {uptime : UInt64} {r : Http.Request} {l : Ledger} {x : Exchange}
  {positions : Finset ℕ}

theorem Counts.ledger_eq (h : Counts l x) (hx : ¬x.response.IsFailure) : x.ledger = l := by
  rcases h with ⟨-, hledger⟩ | ⟨o, hresponse, -⟩
  · exact hledger
  · exact absurd (by rw [hresponse]; exact ⟨rfl, rfl⟩) hx

/-- Whatever check decides a request, it decides it in the same way at another time. -/
theorem Ruling.resembles (h : Ruling longest limit uptime r l x) (later : UInt64) :
    ∃ y, Ruling longest limit later r l y ∧ x.Resembles y := by
  cases h with
  | declaredLength h => exact ⟨_, .declaredLength h, .refl _⟩
  | unknownPath h hp hp' => exact ⟨_, .unknownPath h hp hp', .refl _⟩
  | unservedMethod h methods hm => exact ⟨_, .unservedMethod h methods hm, .refl _⟩
  | listing h hp hm => exact ⟨_, .listing h hp hm, .refl _⟩
  | report h hp hm =>
    refine ⟨_, .report h hp hm, Exchange.resembles_json ?_ 200 [] l⟩
    rcases hm with hm | hm
    · rw [shown_of_ne (by simp [hm]), shown_of_ne (by simp [hm])]
      exact .inr ⟨health uptime l, later, rfl, rfl⟩
    · exact .inl (by simp [shown, hm])
  | contentType q h hc => exact ⟨_, .contentType q h hc, .refl _⟩
  | bodyLength q h hc hl => exact ⟨_, .bodyLength q h hc hl, .refl _⟩
  | undecodable q h d hd => exact ⟨_, .undecodable q h d hd, .refl _⟩
  | answered q h m hd reply hr a ha => exact ⟨_, .answered q h m hd reply hr a ha, .refl _⟩
  | failed q h m hd reply hr f hf => exact ⟨_, .failed q h m hd reply hr f hf, .refl _⟩

theorem respond_resembles (limit : ℕ) (r : Http.Request) (l : Ledger) (uptime later : UInt64) :
    (respond limit uptime r l).Resembles (respond limit later r l) := by
  obtain ⟨y, hy, hresembles⟩ := (ruling_iff.2 (rfl : respond limit uptime r l = _)).resembles later
  rwa [ruling_iff.1 hy]

/-- The same requests at other times. -/
theorem exchanges_resemble {arrivals later : List Arrival}
    (h : later.map Arrival.request = arrivals.map Arrival.request) :
    List.Forall₂ Exchange.Resembles (exchanges limit l arrivals) (exchanges limit l later) := by
  induction arrivals generalizing later l with
  | nil =>
    obtain rfl : later = [] := by simpa using h
    exact .nil
  | cons a arrivals ih =>
    obtain ⟨b, later, rfl, hb, hlater⟩ := List.map_eq_cons_iff.1 h
    have hstep := respond_resembles limit a.request l a.uptime b.uptime
    rw [exchanges, exchanges, hb]
    refine .cons hstep ?_
    rw [← hstep.ledger_eq]
    exact ih hlater

theorem exchanges_withoutFrom {arrivals : List Arrival}
    (h : ∀ p ∈ (exchanges limit l arrivals).zipIdx start, p.2 ∈ positions →
      ¬p.1.response.IsFailure) :
    exchanges limit l (withoutFrom start positions arrivals) =
      withoutFrom start positions (exchanges limit l arrivals) := by
  induction arrivals generalizing l start with
  | nil => rfl
  | cons a arrivals ih =>
    simp only [exchanges, List.zipIdx_cons, List.forall_mem_cons] at h ⊢
    obtain ⟨hfirst, hrest⟩ := h
    by_cases hstart : start ∈ positions
    · have hledger := counts_respond.ledger_eq (hfirst hstart)
      rw [withoutFrom_cons_of_mem hstart, withoutFrom_cons_of_mem hstart, ← ih hrest, hledger]
    · rw [withoutFrom_cons_of_notMem hstart, withoutFrom_cons_of_notMem hstart, exchanges, ih hrest]

end

/-- Taking requests that are no failures out of a run takes their exchanges out of its exchanges.
If the others come at other times, no more than the uptimes in health reports change. -/
theorem exchanges_without (limit : ℕ) (l : Ledger) (arrivals : List Arrival)
    (positions : Finset ℕ)
    (h : ∀ p ∈ (exchanges limit l arrivals).zipIdx, p.2 ∈ positions →
      ¬p.1.response.IsFailure) :
    exchanges limit l (without positions arrivals) =
        without positions (exchanges limit l arrivals) ∧
      ∀ later : List Arrival,
        later.map Arrival.request = (without positions arrivals).map Arrival.request →
          List.Forall₂ Exchange.Resembles (without positions (exchanges limit l arrivals))
            (exchanges limit l later) := by
  have hwithout : exchanges limit l (without positions arrivals) =
      without positions (exchanges limit l arrivals) := exchanges_withoutFrom h
  refine ⟨hwithout, ?_⟩
  intro later hlater
  rw [← hwithout]
  exact exchanges_resemble hlater

def posted (body : String) : Http.Request :=
  ⟨"POST", "/extractNumber", [("content-type", "application/json")], body.toUTF8⟩

/-- Two divisions by zero with a sum, a health report and a broken body between them, and a health
report after them. -/
def mixture : List Arrival :=
  [⟨posted "\x7b\"expression\":\"1 divided 0\"\x7d", 0⟩,
    ⟨posted "\x7b\"expression\":\"1 plus 1\"\x7d", 1⟩, ⟨⟨"GET", "/health", [], .empty⟩, 2⟩,
    ⟨posted "\x7b", 3⟩, ⟨posted "\x7b\"expression\":\"2 divided 0\"\x7d", 4⟩,
    ⟨⟨"GET", "/health", [], .empty⟩, 5⟩]

theorem mixture_without :
    (∀ p ∈ (exchanges 65536 .empty mixture).zipIdx, p.2 ∈ ({1, 2, 3} : Finset ℕ) →
      ¬p.1.response.IsFailure) ∧
    (exchanges 65536 .empty (without {1, 2, 3} mixture)).length = 3 ∧
    exchanges 65536 .empty (without {1, 2, 3} mixture) =
      without {1, 2, 3} (exchanges 65536 .empty mixture) ∧
    List.Forall₂ Exchange.Resembles (without {1, 2, 3} (exchanges 65536 .empty mixture))
      (exchanges 65536 .empty ((without {1, 2, 3} mixture).map fun a => ⟨a.request, 60⟩)) := by
  have h : ∀ p ∈ (exchanges 65536 .empty mixture).zipIdx, p.2 ∈ ({1, 2, 3} : Finset ℕ) →
      ¬p.1.response.IsFailure := by decide +kernel
  obtain ⟨hwithout, hlater⟩ := exchanges_without 65536 .empty mixture {1, 2, 3} h
  exact ⟨h, by decide +kernel, hwithout, hlater _ (by simp)⟩

end Server
end PhraseArithmetic
