import PhraseArithmetic.Proofs.Session.Groups

/-!
# Sharing within a group and isolation from the others

What is done through the services of a group shows what it would show on one ledger of their own.
So it does not matter through which of them it is done, or what is done through the services of
other groups.
-/
namespace PhraseArithmetic

/-- What operations on one ledger show, one after another. -/
def Ledger.trace (l : Ledger) : List Operation → List Observation
  | [] => []
  | op :: rest => op.observe l :: (op.apply l).trace rest

namespace Step

/-- The operation of a step that addresses a service of a group. -/
def operationIn? (founders : List ℕ) (g : ℕ) : Step → Option Operation
  | operate service op => if founders[service]? = some g then some op else none
  | _ => none

/-- An operation on any service of a group is put to its first. -/
def redirect (founders : List ℕ) (g : ℕ) : Step → Step
  | operate service op => operate (if founders[service]? = some g then g else service) op
  | step => step

end Step

namespace Session

def operationsIn (g : ℕ) (steps : List Step) : List Operation :=
  steps.filterMap (Step.operationIn? (founders steps) g)

/-- What the operations on services of a group have shown. -/
def observedIn (g : ℕ) (steps : List Step) (observations : List Observation) : List Observation :=
  ((steps.zip observations).filter
    fun p => (p.1.operationIn? (founders steps) g).isSome).map Prod.snd

/-- The steps without the operations on services of other groups. Every service is still made. -/
def withoutOthers (g : ℕ) (steps : List Step) : List Step :=
  steps.filter fun step => !step.isOperating || (step.operationIn? (founders steps) g).isSome

def redirected (g : ℕ) (steps : List Step) : List Step :=
  steps.map (Step.redirect (founders steps) g)

/-- The ledger that a group holds; it is empty as long as there is no such group. -/
structure Holds (founders : List ℕ) (g : ℕ) (s : Session) (l : Ledger) : Prop where
  of_founded : founders[g]? = some g →
    ∃ place, s.services[g]? = some place ∧ s.ledgers[place]? = some l
  of_not_founded : founders[g]? ≠ some g → l = .empty

section
variable {founders : List ℕ} {s next : Session} {step : Step} {observation : Observation}
  {service g : ℕ} {op : Operation} {l : Ledger}

/-- A service that founds no group leaves every group its ledger. -/
theorem Holds.add {f place : ℕ} {ledgers : List Ledger} (hl : Holds founders g s l)
    (hg : Grouping founders s)
    (hledgers : ∀ p < s.ledgers.length, ledgers[p]? = s.ledgers[p]?)
    (hf : founders.length = g → f ≠ g) :
    Holds (founders ++ [f]) g ⟨ledgers, s.services ++ [place]⟩ l where
  of_founded h := by
    have hlt : g < founders.length := by
      rcases Nat.lt_trichotomy g founders.length with hlt | heq | hgt
      · exact hlt
      · exact absurd (by simpa [heq] using h) (hf heq.symm)
      · rw [List.getElem?_eq_none (by simp; omega)] at h
        simp at h
    rw [List.getElem?_append_left hlt] at h
    obtain ⟨p, hp, hlp⟩ := hl.of_founded h
    refine ⟨p, by rwa [List.getElem?_append_left (hg.length_eq ▸ hlt)], ?_⟩
    rwa [hledgers p (List.getElem?_eq_some_iff.1 hlp).1]
  of_not_founded h := by
    apply hl.of_not_founded
    intro hfounded
    rw [List.getElem?_append_left (List.getElem?_eq_some_iff.1 hfounded).1] at h
    exact h hfounded

theorem Holds.create (hl : Holds founders g s l) (hg : Grouping founders s) :
    Holds (founders ++ [founders.length]) g
      ⟨s.ledgers ++ [.empty], s.services ++ [s.ledgers.length]⟩ l := by
  by_cases hnew : founders.length = g
  · subst hnew
    obtain rfl : l = .empty := hl.of_not_founded (by simp)
    exact ⟨fun _ => ⟨s.ledgers.length, by simp [hg.length_eq], by simp⟩, fun h => by simp at h⟩
  · exact hl.add hg (fun p hp => List.getElem?_append_left hp) fun h => absurd h hnew

/-- An operation through a service of the group is put to the group's ledger. -/
theorem Holds.operate {place : ℕ} {l' : Ledger} (hl : Holds founders g s l)
    (hg : Grouping founders s) (hservice : founders[service]? = some g)
    (hplace : s.services[service]? = some place) (hl' : s.ledgers[place]? = some l') :
    l' = l ∧ Holds founders g ⟨s.ledgers.set place (op.apply l'), s.services⟩ (op.apply l) := by
  have hfounded := (hg.founder hservice).2
  obtain ⟨p, hp, hlp⟩ := hl.of_founded hfounded
  obtain rfl : place = p := Option.some.inj ((hg.services_founder hservice hplace).symm.trans hp)
  obtain rfl : l' = l := Option.some.inj (hl'.symm.trans hlp)
  refine ⟨rfl, fun _ => ⟨place, hp, ?_⟩, fun h => absurd hfounded h⟩
  exact List.getElem?_set_self (List.getElem?_eq_some_iff.1 hl').1

/-- An operation through a service of another group leaves the group's ledger. -/
theorem Holds.operate_other {place : ℕ} (hl : Holds founders g s l) (hg : Grouping founders s)
    (hservice : founders[service]? ≠ some g) (hplace : s.services[service]? = some place)
    (l' : Ledger) : Holds founders g ⟨s.ledgers.set place l', s.services⟩ l where
  of_founded hfounded := by
    obtain ⟨p, hp, hlp⟩ := hl.of_founded hfounded
    refine ⟨p, hp, ?_⟩
    -- two services on one ledger would be in one group
    have hne : place ≠ p := by
      rintro rfl
      have hsame := hg.same_iff (hg.lt_of_getElem? hplace) (hg.lt_of_getElem? hp)
      exact hservice ((hsame.2 (hplace.trans hp.symm)).trans hfounded)
    rwa [List.getElem?_set_ne hne]
  of_not_founded h := hl.of_not_founded h

/-- A step that addresses no service of the group leaves the group's ledger. -/
theorem Holds.step_of_none (hl : Holds founders g s l) (hg : Grouping founders s)
    (h : s.step step = some (next, observation)) (hnone : step.operationIn? founders g = none) :
    Holds (step.founders founders) g next l := by
  cases step with
  | create =>
    rw [eq_of_create h]
    exact hl.create hg
  | clone source | share source =>
    obtain ⟨place, hplace, rfl⟩ := exists_place_of_addService h
    obtain ⟨f, hf, hlt⟩ := hg.exists_founder hplace
    rw [Step.founders, hf]
    exact hl.add hg (fun _ _ => rfl) (by omega)
  | operate service op =>
    obtain ⟨place, l', hplace, -, rfl, -⟩ := exists_ledger_of_operate h
    have hservice : founders[service]? ≠ some g := by simpa [Step.operationIn?] using hnone
    exact hl.operate_other hg hservice hplace _

/-- A step that addresses a service of the group shows what its operation shows on the group's
ledger. -/
theorem Holds.step_of_some (hl : Holds founders g s l) (hg : Grouping founders s)
    (h : s.step step = some (next, observation)) (hop : step.operationIn? founders g = some op) :
    observation = op.observe l ∧ Holds (step.founders founders) g next (op.apply l) := by
  cases step with
  | create | clone source | share source => simp [Step.operationIn?] at hop
  | operate service op' =>
    obtain ⟨hservice, rfl⟩ : founders[service]? = some g ∧ op' = op := by
      simpa [Step.operationIn?] using hop
    obtain ⟨place, l', hplace, hl', rfl, rfl⟩ := exists_ledger_of_operate h
    obtain ⟨rfl, hnext⟩ := hl.operate hg hservice hplace hl'
    exact ⟨rfl, hnext⟩

theorem Grouping.operationIn?_eq (hg : Grouping founders s)
    (h : s.step step = some (next, observation)) (g : ℕ) (steps : List Step) :
    step.operationIn? (foundersFrom founders steps) g = step.operationIn? founders g := by
  cases step with
  | create | clone source | share source => rfl
  | operate service op => rw [Step.operationIn?, Step.operationIn?, hg.getElem?_of_operate h]

section
variable {steps : List Step} {observations : List Observation}

/-- What is shown to a group in a run is the trace of its operations on its ledger. -/
theorem Holds.observed_eq_trace {all : List ℕ} (hl : Holds founders g s l)
    (hg : Grouping founders s) (hall : foundersFrom founders steps = all)
    (h : s.run steps = some observations) :
    ((steps.zip observations).filter fun p => (p.1.operationIn? all g).isSome).map Prod.snd =
      l.trace (steps.filterMap (Step.operationIn? all g)) := by
  -- `all` are the groups at the end and stay fixed, `founders` grows towards them
  induction steps generalizing founders s l observations with
  | nil => rfl
  | cons step rest ih =>
    obtain ⟨next, observation, later, hstep, hlater, rfl⟩ := exists_of_run_cons h
    have hop : step.operationIn? all g = step.operationIn? founders g :=
      hall ▸ hg.operationIn?_eq hstep g (step :: rest)
    cases ho : step.operationIn? founders g with
    | none =>
      have hrest := ih (hl.step_of_none hg hstep ho) (hg.of_step hstep) hall hlater
      simpa [hop, ho] using hrest
    | some op =>
      obtain ⟨rfl, hnext⟩ := hl.step_of_some hg hstep ho
      have hrest := ih hnext (hg.of_step hstep) hall hlater
      simpa [hop, ho, Ledger.trace] using hrest

theorem Grouping.step_redirect (hg : Grouping founders s)
    (h : s.step step = some (next, observation)) (g : ℕ) :
    s.step (step.redirect founders g) = some (next, observation) := by
  cases step with
  | create | clone source | share source => exact h
  | operate service op =>
    by_cases hservice : founders[service]? = some g
    · obtain ⟨place, l, hplace, -⟩ := exists_ledger_of_operate h
      rw [Step.redirect, if_pos hservice, ← h, Session.step, Session.step, hplace,
        hg.services_founder hservice hplace]
    · rwa [Step.redirect, if_neg hservice]

/-- It does not matter through which service of a group an operation is done. -/
theorem Grouping.run_redirect {all : List ℕ} (hg : Grouping founders s)
    (hall : foundersFrom founders steps = all) (h : s.run steps = some observations) (g : ℕ) :
    s.run (steps.map (Step.redirect all g)) = some observations := by
  induction steps generalizing founders s observations with
  | nil => exact h
  | cons step rest ih =>
    obtain ⟨next, observation, later, hstep, hlater, rfl⟩ := exists_of_run_cons h
    have hredirect : step.redirect all g = step.redirect founders g := by
      cases step with
      | create | clone source | share source => rfl
      | operate service op =>
        rw [Step.redirect, Step.redirect, ← hall, hg.getElem?_of_operate hstep]
    rw [List.map_cons, hredirect, run_cons_of_step (hg.step_redirect hstep g),
      ih (hg.of_step hstep) hall hlater, Option.map_some]

end

/-- The same services on ledgers in the same places. -/
structure Alike (s t : Session) : Prop where
  services_eq : t.services = s.services
  length_eq : t.ledgers.length = s.ledgers.length

theorem Alike.of_step {t : Session} (ha : Alike s t) (h : s.step step = some (next, observation)) :
    ∃ next' observation', t.step step = some (next', observation') ∧ Alike next next' := by
  obtain ⟨hservices, hlength⟩ := ha
  cases step with
  | create =>
    rw [eq_of_create h]
    exact ⟨_, _, rfl, by simp [hservices, hlength], by simp [hlength]⟩
  | clone source | share source =>
    obtain ⟨place, hplace, rfl⟩ := exists_place_of_addService h
    refine ⟨⟨t.ledgers, t.services ++ [place]⟩, ⟨.created t.services.length, []⟩, ?_,
      by simp [hservices], hlength⟩
    simp [Session.step, addService, hservices, hplace]
  | operate service op =>
    obtain ⟨place, l, hplace, hl, rfl, -⟩ := exists_ledger_of_operate h
    have hlt : place < t.ledgers.length := hlength ▸ (List.getElem?_eq_some_iff.1 hl).1
    refine ⟨⟨t.ledgers.set place (op.apply t.ledgers[place]), t.services⟩,
      op.observe t.ledgers[place], ?_, hservices, by simp [hlength]⟩
    simp [Session.step, hservices, hplace, hlt]

theorem Alike.of_operate {t : Session} (ha : Alike s t)
    (h : s.step (.operate service op) = some (next, observation)) : Alike next t := by
  obtain ⟨place, l, -, -, rfl, -⟩ := exists_ledger_of_operate h
  exact ⟨ha.services_eq, by simpa using ha.length_eq⟩

/-- Steps that make no service can be left out of a run. -/
theorem Alike.exists_run_filter {t : Session} {steps : List Step} {observations : List Observation}
    {keep : Step → Bool} (hkeep : ∀ step, step.isOperating = false → keep step = true)
    (ha : Alike s t) (h : s.run steps = some observations) :
    ∃ kept, t.run (steps.filter keep) = some kept := by
  -- `t` runs the kept steps only, so its ledgers differ from those of `s`, but not their number
  induction steps generalizing s t observations with
  | nil => exact ⟨[], rfl⟩
  | cons step rest ih =>
    obtain ⟨next, observation, later, hstep, hlater, rfl⟩ := exists_of_run_cons h
    by_cases hk : keep step = true
    · obtain ⟨next', observation', hstep', hnext⟩ := ha.of_step hstep
      obtain ⟨kept, hkept⟩ := ih hnext hlater
      rw [List.filter_cons_of_pos hk, run_cons_of_step hstep', hkept]
      exact ⟨observation' :: kept, rfl⟩
    · rw [List.filter_cons_of_neg hk]
      cases step with
      | operate service op => exact ih (ha.of_operate hstep) hlater
      | create | clone source | share source => exact absurd (hkeep _ rfl) hk

end

theorem foundersFrom_map_redirect (addressed : List ℕ) (g : ℕ) (founders : List ℕ)
    (steps : List Step) :
    foundersFrom founders (steps.map (Step.redirect addressed g)) =
      foundersFrom founders steps := by
  induction steps generalizing founders with
  | nil => rfl
  | cons step rest ih =>
    rw [List.map_cons, foundersFrom_cons, foundersFrom_cons, ih]
    cases step <;> rfl

section
variable (g : ℕ) (steps : List Step)

theorem founders_withoutOthers : founders (withoutOthers g steps) = founders steps :=
  foundersFrom_filter (by simp +contextual) [0] steps

theorem founders_redirected : founders (redirected g steps) = founders steps :=
  foundersFrom_map_redirect (founders steps) g [0] steps

theorem operationsIn_withoutOthers :
    operationsIn g (withoutOthers g steps) = operationsIn g steps := by
  rw [operationsIn, founders_withoutOthers, operationsIn, withoutOthers, List.filterMap_filter]
  congr 1
  funext step
  cases step.operationIn? (founders steps) g <;> simp

theorem operationsIn_redirected {s : Session} (hg : Grouping (founders steps) s) :
    operationsIn g (redirected g steps) = operationsIn g steps := by
  rw [operationsIn, founders_redirected, operationsIn, redirected, List.filterMap_map]
  congr 1
  funext step
  cases step with
  | create | clone source | share source => rfl
  | operate service op =>
    by_cases hservice : (founders steps)[service]? = some g
    · simp [Step.redirect, Step.operationIn?, hservice, (hg.founder hservice).2]
    · simp [Step.redirect, Step.operationIn?, hservice]

end

theorem holds_start (g : ℕ) : Holds [0] g start .empty := by
  refine ⟨fun hfounded => ?_, fun _ => rfl⟩
  obtain rfl : g = 0 := by simpa using (List.getElem?_eq_some_iff.1 hfounded).1
  exact ⟨0, rfl, rfl⟩

/-- A group shows what its operations show on one ledger that was empty at first. -/
theorem observedIn_eq_trace {steps : List Step} {observations : List Observation}
    (h : start.run steps = some observations) (g : ℕ) :
    observedIn g steps observations = Ledger.empty.trace (operationsIn g steps) := by
  have hl : Holds [0] g start .empty := holds_start g
  exact hl.observed_eq_trace .start rfl h

/-- In every session two services are in one group exactly if they hold one ledger, and a group
shows what its operations show on a ledger of its own. So it shows the same if all operations
through services of other groups are taken out, and if all its operations are put to its first
service. -/
theorem groups_share_and_are_isolated (steps : List Step) (observations : List Observation)
    (h : start.run steps = some observations) :
    (∃ s, start.after steps = some s ∧ Grouping (founders steps) s) ∧
    ∀ g, observedIn g steps observations = Ledger.empty.trace (operationsIn g steps) ∧
      (∃ alone, start.run (withoutOthers g steps) = some alone ∧
        observedIn g (withoutOthers g steps) alone = observedIn g steps observations) ∧
      start.run (redirected g steps) = some observations ∧
        observedIn g (redirected g steps) observations = observedIn g steps observations := by
  obtain ⟨s, hs, hg⟩ := Grouping.start.exists_after h
  refine ⟨⟨s, hs, hg⟩, fun g => ⟨observedIn_eq_trace h g, ?_, ?_⟩⟩
  · have hkept : ∃ alone, start.run (withoutOthers g steps) = some alone :=
      Alike.exists_run_filter (by simp +contextual) ⟨rfl, rfl⟩ h
    obtain ⟨alone, halone⟩ := hkept
    refine ⟨alone, halone, ?_⟩
    rw [observedIn_eq_trace halone, operationsIn_withoutOthers, observedIn_eq_trace h]
  · have hredirected : start.run (redirected g steps) = some observations :=
      Grouping.start.run_redirect rfl h g
    refine ⟨hredirected, ?_⟩
    rw [observedIn_eq_trace hredirected, operationsIn_redirected g steps hg, observedIn_eq_trace h]

/-- One kind is counted on two ledgers, each held by two services. -/
def twoGroups : List Step :=
  [.operate 0 (.increment ⟨"kind", "here", "1"⟩), .create, .clone 0, .share 1,
    .operate 2 (.increment ⟨"kind", "here", "2"⟩), .operate 3 (.increment ⟨"kind", "there", "3"⟩),
    .operate 0 .counts, .operate 1 (.get "kind")]

theorem twoGroups_are_isolated :
    founders twoGroups = [0, 1, 0, 1] ∧
    ∃ observations, start.run twoGroups = some observations ∧
      observedIn 1 twoGroups observations =
        [⟨.counted ⟨"3", "there", 1, "kind"⟩, Ledger.empty.announcement ⟨"kind", "there", "3"⟩⟩,
          ⟨.found (some ⟨"3", "there", 1, "kind"⟩), []⟩] ∧
      (∃ alone, start.run (withoutOthers 1 twoGroups) = some alone ∧
        observedIn 1 (withoutOthers 1 twoGroups) alone = observedIn 1 twoGroups observations) ∧
      start.run (redirected 1 twoGroups) = some observations ∧
      redirected 1 twoGroups ≠ twoGroups := by
  have hrun : (start.run twoGroups).isSome = true := rfl
  obtain ⟨observations, h⟩ := Option.isSome_iff_exists.1 hrun
  obtain ⟨-, hall⟩ := groups_share_and_are_isolated twoGroups observations h
  obtain ⟨htrace, halone, hredirected, -⟩ := hall 1
  exact ⟨by decide, observations, h, htrace, halone, hredirected, by decide⟩

end Session
end PhraseArithmetic
