import Mathlib.Data.Nat.Notation
import PhraseArithmetic.Session

/-!
# Groups of services

The services that hold one ledger are a group, named by its first service. A new service founds a
group; a clone, and a service on a shared ledger, join the group of their source. So the groups
can be told from the steps of a session alone.
-/
namespace PhraseArithmetic

namespace Step

/-- The founders of all services' groups after a step, from those before it. -/
def founders (earlier : List ℕ) : Step → List ℕ
  | create => earlier ++ [earlier.length]
  | clone source | share source => earlier ++ earlier[source]?.toList
  | operate _ _ => earlier

def isOperating : Step → Bool
  | operate _ _ => true
  | _ => false

end Step

namespace Session

def foundersFrom (earlier : List ℕ) (steps : List Step) : List ℕ :=
  steps.foldl Step.founders earlier

/-- The first service of each service's group, in the order of the services. -/
def founders (steps : List Step) : List ℕ := foundersFrom [0] steps

/-- Founders belong to their own groups, none comes after its followers, and two services are in
one group exactly if they hold one ledger. -/
structure Grouping (founders : List ℕ) (s : Session) : Prop where
  length_eq : founders.length = s.services.length
  place_lt : ∀ place ∈ s.services, place < s.ledgers.length
  founder : ∀ {i f : ℕ}, founders[i]? = some f → f ≤ i ∧ founders[f]? = some f
  same_iff : ∀ {i j : ℕ}, i < founders.length → j < founders.length →
    (founders[i]? = founders[j]? ↔ s.services[i]? = s.services[j]?)

section
variable {founders : List ℕ} {s next : Session} {step : Step} {observation : Observation}

theorem foundersFrom_cons (founders : List ℕ) (step : Step) (rest : List Step) :
    foundersFrom founders (step :: rest) = foundersFrom (step.founders founders) rest := rfl

/-- Later steps leave the groups of the services that there are. -/
theorem getElem?_foundersFrom {i : ℕ} (h : i < founders.length) (steps : List Step) :
    (foundersFrom founders steps)[i]? = founders[i]? := by
  induction steps generalizing founders with
  | nil => rfl
  | cons step rest ih =>
    rw [foundersFrom_cons]
    cases step with
    | create | clone source | share source =>
      rw [Step.founders, ih (by simp; omega), List.getElem?_append_left h]
    | operate service op => exact ih h

/-- Steps that make no service change no group. -/
theorem foundersFrom_filter {keep : Step → Bool}
    (hkeep : ∀ step, step.isOperating = false → keep step = true) (founders : List ℕ)
    (steps : List Step) :
    foundersFrom founders (steps.filter keep) = foundersFrom founders steps := by
  induction steps generalizing founders with
  | nil => rfl
  | cons step rest ih =>
    by_cases hk : keep step = true
    · rw [List.filter_cons_of_pos hk, foundersFrom_cons, foundersFrom_cons, ih]
    · rw [List.filter_cons_of_neg hk, foundersFrom_cons, ih]
      cases step with
      | operate service op => rfl
      | create | clone source | share source => exact absurd (hkeep _ rfl) hk

theorem Grouping.start : Grouping [0] Session.start where
  length_eq := rfl
  place_lt := by simp [Session.start]
  founder {i f} h := by
    obtain ⟨hi, rfl⟩ := List.getElem?_eq_some_iff.1 h
    obtain rfl : i = 0 := by simpa using hi
    simp
  same_iff {i j} hi hj := by
    obtain rfl : i = 0 := by simpa using hi
    obtain rfl : j = 0 := by simpa using hj
    simp

theorem Grouping.lt_of_getElem? {i place : ℕ} (hg : Grouping founders s)
    (h : s.services[i]? = some place) : i < founders.length := by
  rw [hg.length_eq]
  exact (List.getElem?_eq_some_iff.1 h).1

/-- A service holds the ledger that the first service of its group holds. -/
theorem Grouping.services_founder {i f place : ℕ} (hg : Grouping founders s)
    (hf : founders[i]? = some f) (h : s.services[i]? = some place) :
    s.services[f]? = some place := by
  have hi := hg.lt_of_getElem? h
  obtain ⟨hle, hfounder⟩ := hg.founder hf
  rw [← h]
  exact (hg.same_iff (by omega) hi).1 (hfounder.trans hf.symm)

/-- A service is added on a ledger that exactly the services of its group hold. -/
theorem Grouping.add {f place : ℕ} {ledgers : List Ledger} (hg : Grouping founders s)
    (hledgers : s.ledgers.length ≤ ledgers.length) (hplace : place < ledgers.length)
    (hf : f ≤ founders.length) (hfounder : (founders ++ [f])[f]? = some f)
    (hsame : ∀ i < founders.length, founders[i]? = some f ↔ s.services[i]? = some place) :
    Grouping (founders ++ [f]) ⟨ledgers, s.services ++ [place]⟩ where
  length_eq := by simp [hg.length_eq]
  place_lt p hp := by
    rcases List.mem_append.1 hp with hp | hp
    · exact Nat.lt_of_lt_of_le (hg.place_lt p hp) hledgers
    · rwa [List.mem_singleton.1 hp]
  founder {i k} h := by
    rcases Nat.lt_trichotomy i founders.length with hi | rfl | hi
    · rw [List.getElem?_append_left hi] at h
      obtain ⟨hle, hk⟩ := hg.founder h
      exact ⟨hle, by rwa [List.getElem?_append_left (by omega)]⟩
    · obtain rfl : f = k := by simpa using h
      exact ⟨hf, hfounder⟩
    · rw [List.getElem?_eq_none (by simp; omega)] at h
      simp at h
  same_iff {i j} hi hj := by
    have hlast : (founders ++ [f])[founders.length]? = some f := by simp
    have hlast' : (s.services ++ [place])[founders.length]? = some place := by
      simp [hg.length_eq]
    have hfirst {k : ℕ} (hk : k < founders.length) :
        (founders ++ [f])[k]? = founders[k]? ∧ (s.services ++ [place])[k]? = s.services[k]? :=
      ⟨List.getElem?_append_left hk, List.getElem?_append_left (hg.length_eq ▸ hk)⟩
    rw [List.length_append, List.length_singleton] at hi hj
    -- each of the two services is an earlier one or the new one
    rcases Nat.lt_succ_iff_lt_or_eq.1 hi with hi | rfl <;>
      rcases Nat.lt_succ_iff_lt_or_eq.1 hj with hj | rfl
    · rw [(hfirst hi).1, (hfirst hi).2, (hfirst hj).1, (hfirst hj).2]
      exact hg.same_iff hi hj
    · rw [(hfirst hi).1, (hfirst hi).2, hlast, hlast']
      exact hsame i hi
    · rw [(hfirst hj).1, (hfirst hj).2, hlast, hlast', eq_comm, hsame j hj, eq_comm]
    · simp

/-- No earlier service holds the ledger of a new service. -/
theorem Grouping.create (hg : Grouping founders s) :
    Grouping (founders ++ [founders.length])
      ⟨s.ledgers ++ [.empty], s.services ++ [s.ledgers.length]⟩ := by
  refine hg.add (by simp) (by simp) (Nat.le_refl _) (by simp) ?_
  intro i hi
  constructor
  · intro hf
    exact absurd (hg.founder hf).1 (Nat.not_le_of_lt hi)
  · intro hp
    exact absurd (hg.place_lt _ (List.mem_of_getElem? hp)) (Nat.lt_irrefl _)

theorem Grouping.exists_founder {source place : ℕ} (hg : Grouping founders s)
    (h : s.services[source]? = some place) :
    ∃ f, founders[source]? = some f ∧ f < founders.length := by
  have hsource := hg.lt_of_getElem? h
  have hf := List.getElem?_eq_getElem hsource
  exact ⟨_, hf, Nat.lt_of_le_of_lt (hg.founder hf).1 hsource⟩

theorem Grouping.join {source place f : ℕ} (hg : Grouping founders s)
    (h : s.services[source]? = some place) (hf : founders[source]? = some f) :
    Grouping (founders ++ [f]) ⟨s.ledgers, s.services ++ [place]⟩ := by
  have hsource := hg.lt_of_getElem? h
  obtain ⟨hle, hfounder⟩ := hg.founder hf
  refine hg.add (Nat.le_refl _) (hg.place_lt place (List.mem_of_getElem? h)) (by omega) ?_ ?_
  · rwa [List.getElem?_append_left (by omega)]
  · intro i hi
    rw [← hf, ← h]
    exact hg.same_iff hi hsource

theorem Grouping.set (hg : Grouping founders s) (place : ℕ) (l : Ledger) :
    Grouping founders ⟨s.ledgers.set place l, s.services⟩ :=
  ⟨hg.length_eq, by simpa using hg.place_lt, hg.founder, hg.same_iff⟩

theorem Grouping.of_step (hg : Grouping founders s) (h : s.step step = some (next, observation)) :
    Grouping (step.founders founders) next := by
  cases step with
  | create =>
    rw [eq_of_create h]
    exact hg.create
  | clone source | share source =>
    obtain ⟨place, hplace, rfl⟩ := exists_place_of_addService h
    obtain ⟨f, hf, -⟩ := hg.exists_founder hplace
    rw [Step.founders, hf]
    exact hg.join hplace hf
  | operate service op =>
    obtain ⟨place, l, -, -, rfl, -⟩ := exists_ledger_of_operate h
    exact hg.set place (op.apply l)

/-- Whom a step addresses is not changed by the services that are made later. -/
theorem Grouping.getElem?_of_operate (hg : Grouping founders s)
    {service : ℕ} {op : Operation}
    (h : s.step (.operate service op) = some (next, observation)) (steps : List Step) :
    (foundersFrom founders steps)[service]? = founders[service]? := by
  obtain ⟨place, l, hplace, -⟩ := exists_ledger_of_operate h
  exact getElem?_foundersFrom (hg.lt_of_getElem? hplace) steps

theorem Grouping.exists_after {steps : List Step} {observations : List Observation}
    (hg : Grouping founders s) (h : s.run steps = some observations) :
    ∃ s', s.after steps = some s' ∧ Grouping (foundersFrom founders steps) s' := by
  induction steps generalizing founders s observations with
  | nil => exact ⟨s, rfl, hg⟩
  | cons step rest ih =>
    obtain ⟨next, observation, later, hstep, hlater, rfl⟩ := exists_of_run_cons h
    rw [after_cons_of_step hstep]
    exact ih (hg.of_step hstep) hlater

end
end Session
end PhraseArithmetic
