import PhraseArithmetic.Proofs.Json.Seams
import PhraseArithmetic.Wire.Reading

/-!
# The first message of a text

Reading a message ends at the bracket that closes it and takes no notice of what follows. So the
first message of a text is the message that some front of the text is as a whole, and a text that is
a message stays the first one whatever is written behind it.
-/
namespace PhraseArithmetic.Wire
open Json (Lexeme)

namespace Reading
variable {fields : List Field} {r t : Reading} {l : Lexeme}

theorem place_of_keyStep (h : r.keyStep fields l = .ok t) : ∃ field, t.place = .colon field := by
  unfold keyStep at h
  split at h
  · split at h
    · split at h
      · simp at h
      · exact ⟨_, congrArg Reading.place (Except.ok.inj h).symm⟩
    · exact ⟨_, congrArg Reading.place (Except.ok.inj h).symm⟩
  · simp at h

theorem place_of_elementStep {field : Field} {rest : List Field}
    (h : r.elementStep field rest l = .ok t) : t.place = .afterElement rest := by
  cases hread : field.kind.read l with
  | error defect => simp [elementStep, hread, bind, Except.bind] at h
  | ok v =>
    have hadd : r.add field.name v (.afterElement rest) = t := by
      simpa [elementStep, hread, bind, Except.bind] using h
    rw [← hadd]
    rfl

theorem place_of_memberStep {field : Field} {found : Members}
    (h : (Reading.mk (.member field) found).step fields l = .ok t) : t.place = .afterMember := by
  cases hread : field.kind.read l with
  | error defect => simp [step, hread, bind, Except.bind] at h
  | ok v =>
    have hadd : (Reading.mk (.member field) found).add field.name v .afterMember = t := by
      simpa [step, hread, bind, Except.bind] using h
    rw [← hadd]
    rfl

theorem place_of_ignoredStep {i : Ignored} {found : Members}
    (h : (Reading.mk (.ignored i) found).step fields l = .ok t) :
    t.place = .afterMember ∨ ∃ j, t.place = .ignored j := by
  cases hi : i.step l with
  | none => simp [step, hi] at h
  | some j =>
    have ht : (Reading.mk (.ignored i) found).goto
        (if j.isFinished then .afterMember else .ignored j) = t := by
      simpa [step, hi] using h
    rw [← ht]
    cases hj : j.isFinished with
    | true => exact .inl (by simp [goto])
    | false => exact .inr ⟨j, by simp [goto]⟩

/-- Reading is over only at a closing bracket. -/
theorem closes_of_step (h : r.step fields l = .ok t) (ht : t.place = .closed) :
    l.closes = true := by
  obtain ⟨place, found⟩ := r
  cases place with
  | opening =>
    cases l
    all_goals simp only [step, reduceCtorEq, Except.ok.injEq] at h
    all_goals
      rw [← h] at ht
      simp [goto] at ht
  | firstKey =>
    by_cases hl : l = .endObject
    · rw [hl]
      rfl
    · have hkey : (Reading.mk .firstKey found).keyStep fields l = .ok t := by
        simpa [step, hl] using h
      obtain ⟨field, hfield⟩ := place_of_keyStep hkey
      simp [hfield] at ht
  | key =>
    obtain ⟨field, hfield⟩ := place_of_keyStep (r := ⟨.key, found⟩) (by simpa [step] using h)
    simp [hfield] at ht
  | colon field =>
    cases field <;> cases l
    all_goals simp only [step, reduceCtorEq, Except.ok.injEq] at h
    all_goals
      rw [← h] at ht
      simp [goto] at ht
  | member field => simp [place_of_memberStep h] at ht
  | ignored i => rcases place_of_ignoredStep h with hi | ⟨j, hi⟩ <;> simp [hi] at ht
  | afterMember =>
    cases l
    all_goals simp only [step, reduceCtorEq, Except.ok.injEq] at h
    · rfl
    · rw [← h] at ht
      simp [goto] at ht
  | firstElement =>
    by_cases hl : l = .endArray
    · rw [hl]
      rfl
    · cases fields with
      | nil => simp [step] at h
      | cons field rest =>
        have helement :
            (Reading.mk .firstElement found).elementStep field rest l = .ok t := by
          simpa [step, hl] using h
        simp [place_of_elementStep helement] at ht
  | element field rest =>
    have helement : (Reading.mk (.element field rest) found).elementStep field rest l = .ok t := by
      simpa [step] using h
    simp [place_of_elementStep helement] at ht
  | afterElement rest =>
    cases rest <;> cases l
    all_goals simp only [step, reduceCtorEq, Except.ok.injEq] at h
    · rfl
    · rw [← h] at ht
      simp [goto] at ht
  | closed => simp [step] at h

theorem run_of_closed (h : r.place = .closed) (ls : List Lexeme) :
    r.run fields ls = .ok (r.found, ls) := by
  obtain ⟨place, found⟩ := r
  obtain rfl : place = .closed := h
  cases ls <;> rfl

theorem run_nil (h : r.place ≠ .closed) : r.run fields [] = .error .malformed := by
  obtain ⟨place, found⟩ := r
  cases place
  all_goals try rfl
  exact absurd rfl h

theorem exists_step_of_run_eq_ok (h : r.place ≠ .closed) {ls : List Lexeme}
    {x : Members × List Lexeme} (hrun : r.run fields (l :: ls) = .ok x) :
    ∃ t, r.step fields l = .ok t ∧ t.run fields ls = .ok x := by
  cases hs : r.step fields l with
  | ok t => exact ⟨t, rfl, by rwa [run_cons fields h hs] at hrun⟩
  | error defect => simp [run_cons_error fields h hs] at hrun

/-- What a reading still takes of the lexemes is nothing or ends in a closing bracket, and is taken
alike whatever comes behind it. -/
theorem exists_of_run_eq_ok {ls rest : List Lexeme} {found : Members}
    (h : r.run fields ls = .ok (found, rest)) :
    ∃ taken, ls = taken ++ rest ∧ (∀ more, r.run fields (taken ++ more) = .ok (found, more)) ∧
      (r.place = .closed ∧ taken = [] ∨ ∃ l, taken.getLast? = some l ∧ l.closes = true) := by
  by_cases hr : r.place = .closed
  · rw [run_of_closed hr] at h
    obtain ⟨rfl, rfl⟩ := Prod.mk.inj (Except.ok.inj h)
    exact ⟨[], rfl, run_of_closed hr, .inl ⟨hr, rfl⟩⟩
  induction ls generalizing r with
  | nil =>
    rw [run_nil hr] at h
    simp at h
  | cons l ls ih =>
    obtain ⟨t, hstep, hrun⟩ := exists_step_of_run_eq_ok hr h
    -- the step closes the message, or what comes behind it does
    by_cases ht : t.place = .closed
    · rw [run_of_closed ht] at hrun
      obtain ⟨rfl, rfl⟩ := Prod.mk.inj (Except.ok.inj hrun)
      refine ⟨[l], rfl, fun more => ?_, .inr ⟨l, rfl, closes_of_step hstep ht⟩⟩
      rw [List.singleton_append, run_cons fields hr hstep, run_of_closed ht]
    · obtain ⟨taken, rfl, hmore, hlast⟩ := ih hrun ht
      obtain ⟨hclosed, -⟩ | ⟨l', hl', hc⟩ := hlast
      · exact absurd hclosed ht
      · refine ⟨l :: taken, rfl, fun more => ?_, .inr ⟨l', ?_, hc⟩⟩
        · rw [List.cons_append, run_cons fields hr hstep, hmore]
        · simp [List.getLast?_cons, hl']

end Reading

namespace Format
variable {α : Type} {f : Format α} {text : List Text.Symbol} {message : α}

theorem readFirst_eq_ok_iff {ls rest : List Lexeme} :
    f.readFirst ls = .ok (message, rest) ↔
      ∃ found, Reading.start.run f.fields ls = .ok (found, rest) ∧
        f.ofMembers? found = some message := by
  rw [readFirst]
  cases hrun : Reading.start.run f.fields ls with
  | error defect => simp
  | ok x =>
    obtain ⟨found, rest'⟩ := x
    cases hm : f.ofMembers? found with
    | none => simp [hm]
    | some m =>
      simp only [hm, Except.ok.injEq, Prod.mk.injEq]
      constructor
      · rintro ⟨rfl, rfl⟩
        exact ⟨found, ⟨rfl, rfl⟩, hm⟩
      · rintro ⟨_, ⟨rfl, rfl⟩, hm'⟩
        exact ⟨Option.some.inj (hm.symm.trans hm'), rfl⟩

theorem decode_eq_ok_iff :
    f.decode text = .ok message ↔ f.readFirst (Json.lexemes text) = .ok (message, []) := by
  rw [decode]
  split
  · next h => simp [h]
  · next h => simp [h]
  · next h => simp [h]

theorem decodeFirst_eq_ok_iff :
    f.decodeFirst text = .ok message ↔
      ∃ rest, f.readFirst (Json.lexemes text) = .ok (message, rest) := by
  rw [decodeFirst]
  cases f.readFirst (Json.lexemes text) with
  | error defect => simp [Except.map]
  | ok x => simp [Except.map, Prod.ext_iff]

/-- The first message of a text is at its front, and stands there whatever follows. -/
theorem exists_front_of_readFirst_eq_ok {rest : List Lexeme}
    (h : f.readFirst (Json.lexemes text) = .ok (message, rest)) :
    ∃ before behind, text = before ++ behind ∧
      ∀ more, f.readFirst (Json.lexemes (before ++ more)) = .ok (message, Json.lexemes more) := by
  obtain ⟨found, hrun, hmessage⟩ := readFirst_eq_ok_iff.1 h
  obtain ⟨taken, htaken, hmore, hlast⟩ := Reading.exists_of_run_eq_ok hrun
  obtain ⟨hclosed, -⟩ | ⟨l, hl, hc⟩ := hlast
  · simp [Reading.start] at hclosed
  · obtain ⟨before, behind, htext, hlexemes⟩ := Json.exists_front htaken hl hc
    refine ⟨before, behind, htext, fun more => ?_⟩
    rw [hlexemes]
    exact readFirst_eq_ok_iff.2 ⟨found, hmore _, hmessage⟩

/-- A text that is a message is the first one of every text that it is in front of. -/
theorem decodeFirst_append_of_decode (h : f.decode text = .ok message) (more : List Text.Symbol) :
    f.decodeFirst (text ++ more) = .ok message := by
  obtain ⟨before, behind, rfl, hmore⟩ := exists_front_of_readFirst_eq_ok (decode_eq_ok_iff.1 h)
  rw [List.append_assoc]
  exact decodeFirst_eq_ok_iff.2 ⟨_, hmore _⟩

/-- A text has a first message exactly when a front of it is that message as a whole. -/
theorem decodeFirst_eq_ok_iff_exists_front :
    f.decodeFirst text = .ok message ↔
      ∃ before behind, text = before ++ behind ∧ f.decode before = .ok message := by
  constructor
  · intro h
    obtain ⟨rest, h⟩ := decodeFirst_eq_ok_iff.1 h
    obtain ⟨before, behind, htext, hmore⟩ := exists_front_of_readFirst_eq_ok h
    refine ⟨before, behind, htext, decode_eq_ok_iff.2 ?_⟩
    rw [← List.append_nil before]
    exact hmore []
  · rintro ⟨before, behind, rfl, h⟩
    exact decodeFirst_append_of_decode h behind

end Format
end PhraseArithmetic.Wire
