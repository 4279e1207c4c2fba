import Mathlib.Data.List.Forall2
import PhraseArithmetic.Proofs.Wire.Passing
import PhraseArithmetic.Wire.Written

/-!
# Collecting the fields of an object

Reading an object keeps the values of the known members in order. It gives up with a mismatch at a
second member of a field and at a value of another kind than the field's, and nowhere else.
-/
namespace PhraseArithmetic

namespace Json.Numeral
variable {n : Numeral}

theorem natural?_text_of_isPlain (h : n.IsPlain) :
    Text.natural? n.text = some n.wholeValue := by
  have htext : n.text = n.whole := by
    simp [text, sign, fractionText, exponentText, h.sign, h.fraction, h.exponent]
  rw [htext, n.isWhole.natural?_eq]
  rfl

theorem natural?_text_of_not_isPlain (h : ¬n.IsPlain) : Text.natural? n.text = none := by
  have hmark : ∃ c ∈ n.text, c.isDigit = false := by
    cases hs : n.negative with
    | true => exact ⟨'-', by simp [text, sign, hs], rfl⟩
    | false =>
      cases hf : n.fraction with
      | some digits => exact ⟨'.', by simp [text, fractionText, hf], rfl⟩
      | none =>
        cases he : n.exponent with
        | some e =>
          refine ⟨e.mark, by simp [text, exponentText, he, Exponent.text], ?_⟩
          rcases e.isMark with hm | hm <;> rw [hm] <;> rfl
        | none => exact absurd ⟨hs, hf, he⟩ h
  obtain ⟨c, hc, hdigit⟩ := hmark
  rw [Text.natural?, if_neg]
  rintro ⟨-, hall⟩
  rw [List.all_eq_true.1 hall c hc] at hdigit
  exact absurd hdigit (by decide)

end Json.Numeral

namespace Wire
open Json (Lexeme Tree Numeral furtherElementLexemes furtherMemberLexemes)

/-- A string says its text, and an integer with neither sign nor fraction nor exponent its value,
which has to be below 2^64. -/
inductive Says : Tree → Value → Prop where
  | text (s : String) : Says (.string s) (.text s)
  | count {n : Numeral} {c : UInt64} (h : n.IsPlain) (hc : n.wholeValue = c.toNat) :
      Says (.number n) (.count c)

/-- If the value is a numeral, its double is finite. -/
def IsFinite (t : Tree) : Prop := ∀ n, t = .number n → Json.inDoubleRange n.text = true

section
variable {k : Kind} {t : Tree} {v : Value}

theorem Says.lexemes_eq (h : Says t v) : t.lexemes = [t.first] := by
  cases h <;> rfl

theorem Kind.read_of_says (h : Says t v) : v.kind.read t.first = .ok v := by
  cases h with
  | text s => rfl
  | @count n c hn hc =>
    have hsize : c.toNat < UInt64.size := c.toNat_lt_size
    simp [Value.kind, Tree.first, read, Json.Numeral.natural?_text_of_isPlain hn, hc, hsize]

theorem says_of_read (h : k.read t.first = .ok v) : v.kind = k ∧ Says t v := by
  cases k with
  | text =>
    cases t <;> simp only [Tree.first, Kind.read, reduceCtorEq, Except.ok.injEq] at h
    next s =>
      rw [← h]
      exact ⟨rfl, .text s⟩
  | count =>
    cases t <;> simp only [Tree.first, Kind.read, reduceCtorEq] at h
    next n =>
      by_cases hn : n.IsPlain
      · simp only [Json.Numeral.natural?_text_of_isPlain hn] at h
        split at h
        · next hsize =>
          rw [← Except.ok.inj h]
          exact ⟨rfl, .count hn (UInt64.toNat_ofNat_of_lt' hsize).symm⟩
        · simp at h
      · simp [Json.Numeral.natural?_text_of_not_isPlain hn] at h

theorem Kind.read_eq_ok_iff : k.read t.first = .ok v ↔ v.kind = k ∧ Says t v := by
  constructor
  · exact says_of_read
  · rintro ⟨rfl, h⟩
    exact read_of_says h

theorem Kind.eq_refusal_of_read {l : Lexeme} {d : Defect} (h : k.read l = .error d) :
    d = refusal l := by
  unfold read at h
  split at h
  · simp at h
  · split at h
    · split at h
      · simp at h
      · exact (Except.error.inj h).symm
    · exact (Except.error.inj h).symm
  · exact (Except.error.inj h).symm

theorem Kind.eq_mismatch_of_read {d : Defect} (hfinite : IsFinite t)
    (h : k.read t.first = .error d) : d = .mismatch := by
  rw [eq_refusal_of_read h]
  cases t with
  | number n => simp [Tree.first, refusal, hfinite n rfl]
  | _ => rfl

end

variable (fields : List Field)

/-- The numerals among the values of known members have finite doubles. -/
def AreFinite (entries : List (String × Tree)) : Prop :=
  ∀ m ∈ entries, (∃ field ∈ fields, field.name = m.1) → IsFinite m.2

/-- What is found after one more member; none where reading gives up. -/
def take? (found : Members) (m : String × Tree) : Option Members :=
  match fields.find? (·.name == m.1) with
  | none => some found
  | some field =>
    if found.any (·.1 == m.1) then none
    else (field.kind.read m.2.first).toOption.map fun v => found ++ [(m.1, v)]

/-- The members of an object that are found behind those found before. -/
def collect? (found : Members) (entries : List (String × Tree)) : Option Members :=
  entries.foldlM (take? fields) found

/-- What comes of reading when these members are found, or none. -/
def outcome (rest : List Lexeme) : Option Members → Except Defect (Members × List Lexeme)
  | some found => .ok (found, rest)
  | none => .error .mismatch

theorem Describes.exists_cons {fields : List Field} {m : String × Value} {ms : Members}
    (h : Describes fields (m :: ms)) :
    ∃ rest, fields = ⟨m.1, m.2.kind⟩ :: rest ∧ Describes rest ms :=
  ⟨_, h.symm, rfl⟩

namespace Reading
variable {fields : List Field} {found : Members} {p : Place}

/-- A member is wanted, or the end when there are none yet. -/
def WantsMember (p : Place) : Prop := p = .firstKey ∨ p = .key

theorem run_field_value {field : Field} {t : Tree} (hfinite : IsFinite t) (rest : List Lexeme) :
    (mk (.member field) found).run fields (t.lexemes ++ rest) =
      match (field.kind.read t.first).toOption with
      | some v => (mk .afterMember (found ++ [(field.name, v)])).run fields rest
      | none => .error .mismatch := by
  cases hread : field.kind.read t.first with
  | ok v =>
    have hstep : (mk (.member field) found).step fields t.first =
        .ok ⟨.afterMember, found ++ [(field.name, v)]⟩ := by
      simp [step, hread, bind, Except.bind, add]
    rw [(says_of_read hread).2.lexemes_eq]
    exact run_cons fields (by simp) hstep rest
  | error d =>
    obtain rfl := Kind.eq_mismatch_of_read hfinite hread
    have hstep : (mk (.member field) found).step fields t.first = .error .mismatch := by
      simp [step, hread, bind, Except.bind]
    obtain ⟨ls, hls⟩ := t.exists_lexemes_eq
    rw [hls]
    exact run_cons_error fields (by simp) hstep _

theorem run_member (hp : WantsMember p) {name : String} {t : Tree}
    (hfinite : (∃ field ∈ fields, field.name = name) → IsFinite t) (rest : List Lexeme) :
    (mk p found).run fields (.string (some name) :: .colon :: (t.lexemes ++ rest)) =
      match take? fields found (name, t) with
      | some next => (mk .afterMember next).run fields rest
      | none => .error .mismatch := by
  have hplace : p ≠ .closed := by rcases hp with rfl | rfl <;> simp
  have hkey : (mk p found).step fields (.string (some name)) =
      (mk p found).keyStep fields (.string (some name)) := by rcases hp with rfl | rfl <;> rfl
  cases hfind : fields.find? (·.name == name) with
  | none =>
    have hname : (mk p found).step fields (.string (some name)) = .ok ⟨.colon none, found⟩ := by
      simp [hkey, keyStep, hfind, goto]
    rw [run_cons fields hplace hname,
      run_cons fields (t := ⟨.ignored .start, found⟩) (by simp) rfl, run_unknown_value]
    simp [take?, hfind]
  | some field =>
    obtain rfl : field.name = name := by simpa using List.find?_some hfind
    cases hfound : found.any (·.1 == field.name) with
    | true =>
      have hname : (mk p found).step fields (.string (some field.name)) = .error .mismatch := by
        simp [hkey, keyStep, hfind, hfound]
      rw [run_cons_error fields hplace hname]
      simp [take?, hfind, hfound]
    | false =>
      have hname : (mk p found).step fields (.string (some field.name)) =
          .ok ⟨.colon (some field), found⟩ := by
        simp [hkey, keyStep, hfind, hfound, goto]
      rw [run_cons fields hplace hname, run_cons fields (t := ⟨.member field, found⟩) (by simp) rfl,
        run_field_value (hfinite ⟨field, List.mem_of_find?_eq_some hfind, rfl⟩)]
      cases hread : (field.kind.read t.first).toOption <;> simp [take?, hfind, hfound, hread]

theorem run_further_members {entries : List (String × Tree)} (hfinite : AreFinite fields entries)
    (rest : List Lexeme) :
    (mk .afterMember found).run fields (furtherMemberLexemes entries ++ .endObject :: rest) =
      outcome rest (collect? fields found entries) := by
  induction entries generalizing found with
  | nil =>
    have hend : (mk .afterMember found).step fields .endObject = .ok ⟨.closed, found⟩ := rfl
    rw [furtherMemberLexemes, List.nil_append, run_cons fields (by simp) hend]
    cases rest <;> rfl
  | cons m entries ih =>
    obtain ⟨name, t⟩ := m
    have hm := (List.forall_mem_cons.1 hfinite).1
    have hentries : AreFinite fields entries := (List.forall_mem_cons.1 hfinite).2
    have hcomma : (mk .afterMember found).step fields .comma = .ok ⟨.key, found⟩ := rfl
    simp only [furtherMemberLexemes, List.cons_append, List.append_assoc]
    rw [run_cons fields (by simp) hcomma, run_member (.inr rfl) hm]
    cases htake : take? fields found (name, t) with
    | none => simp [collect?, htake, outcome]
    | some next => simpa [collect?, htake] using ih hentries

/-- Reading an object collects its members. -/
theorem run_object {entries : List (String × Tree)} (hfinite : AreFinite fields entries)
    (rest : List Lexeme) :
    start.run fields ((Tree.object entries).lexemes ++ rest) =
      outcome rest (collect? fields [] entries) := by
  have hopen : start.step fields .beginObject = .ok ⟨.firstKey, []⟩ := rfl
  match entries with
  | [] =>
    have hend : (mk .firstKey []).step fields .endObject = .ok ⟨.closed, []⟩ := rfl
    simp only [Tree.lexemes, List.cons_append, List.nil_append]
    rw [run_cons fields (by simp [start]) hopen, run_cons fields (by simp) hend]
    cases rest <;> rfl
  | (name, t) :: entries =>
    have hm := (List.forall_mem_cons.1 hfinite).1
    have hentries : AreFinite fields entries := (List.forall_mem_cons.1 hfinite).2
    simp only [Tree.lexemes, List.cons_append, List.append_assoc, List.nil_append]
    rw [run_cons fields (by simp [start]) hopen, run_member (.inl rfl) hm]
    cases htake : take? fields [] (name, t) with
    | none => simp [collect?, htake, outcome]
    | some next => simpa [collect?, htake] using run_further_members hentries rest

theorem elementStep_of_says {t : Tree} {m : String × Value} (ht : Says t m.2) (rest : List Field)
    (p : Place) :
    (mk p found).elementStep ⟨m.1, m.2.kind⟩ rest t.first =
      .ok ⟨.afterElement rest, found ++ [m]⟩ := by
  simp [elementStep, Kind.read_of_says ht, bind, Except.bind, add]

/-- The elements that are left, behind a comma each. -/
theorem run_further_elements {rest : List Field} {ms : Members} (hms : Describes rest ms)
    {ts : List Tree} (hts : List.Forall₂ Says ts (ms.map Prod.snd)) (more : List Lexeme) :
    (mk (.afterElement rest) found).run fields (furtherElementLexemes ts ++ .endArray :: more) =
      .ok (found ++ ms, more) := by
  induction ms generalizing rest ts found with
  | nil =>
    obtain rfl : [] = rest := hms
    obtain rfl : ts = [] := by simpa using hts
    have hend : (mk (.afterElement []) found).step fields .endArray = .ok ⟨.closed, found⟩ := rfl
    rw [furtherElementLexemes, List.nil_append, run_cons fields (by simp) hend, List.append_nil]
    cases more <;> rfl
  | cons m ms ih =>
    obtain ⟨rest, rfl, hrest⟩ := hms.exists_cons
    obtain ⟨t, ts, ht, htail, rfl⟩ := List.forall₂_cons_right_iff.1 hts
    have hcomma : (mk (.afterElement (⟨m.1, m.2.kind⟩ :: rest)) found).step fields .comma =
        .ok ⟨.element ⟨m.1, m.2.kind⟩ rest, found⟩ := rfl
    have hvalue : (mk (.element ⟨m.1, m.2.kind⟩ rest) found).step fields t.first =
        .ok ⟨.afterElement rest, found ++ [m]⟩ := elementStep_of_says ht rest _
    simp only [furtherElementLexemes, ht.lexemes_eq, List.cons_append, List.nil_append]
    rw [run_cons fields (by simp) hcomma, run_cons fields (by simp) hvalue, ih hrest htail]
    simp

/-- Reading an array collects the values of the fields in their order. -/
theorem run_array {ms : Members} (hms : Describes fields ms) {ts : List Tree}
    (hts : List.Forall₂ Says ts (ms.map Prod.snd)) (more : List Lexeme) :
    start.run fields ((Tree.array ts).lexemes ++ more) = .ok (ms, more) := by
  have hopen : start.step fields .beginArray = .ok ⟨.firstElement, []⟩ := rfl
  cases ms with
  | nil =>
    obtain rfl : [] = fields := hms
    obtain rfl : ts = [] := by simpa using hts
    have hend : (mk .firstElement []).step [] .endArray = .ok ⟨.closed, []⟩ := rfl
    simp only [Tree.lexemes, List.cons_append, List.nil_append]
    rw [run_cons [] (by simp [start]) hopen, run_cons [] (by simp) hend]
    cases more <;> rfl
  | cons m ms =>
    obtain ⟨name, v⟩ := m
    obtain ⟨rest, rfl, hrest⟩ := hms.exists_cons
    obtain ⟨t, ts, ht, htail, rfl⟩ := List.forall₂_cons_right_iff.1 hts
    have hvalue : (mk .firstElement []).step (⟨name, v.kind⟩ :: rest) t.first =
        .ok ⟨.afterElement rest, [(name, v)]⟩ := by
      have hstep : (mk .firstElement []).elementStep ⟨name, v.kind⟩ rest t.first =
          .ok ⟨.afterElement rest, [(name, v)]⟩ := elementStep_of_says (m := (name, v)) ht rest _
      cases ht <;> exact hstep
    simp only [Tree.lexemes, ht.lexemes_eq, List.cons_append, List.append_assoc, List.nil_append]
    rw [run_cons _ (by simp [start]) hopen, run_cons _ (by simp) hvalue,
      run_further_elements hrest htail]
    simp

end Reading

end Wire
end PhraseArithmetic
