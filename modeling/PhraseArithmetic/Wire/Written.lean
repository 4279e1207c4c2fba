import PhraseArithmetic.Json.Written
import PhraseArithmetic.Wire.Message

/-!
# Written messages are read back

The lexemes of a written message are its members in braces, with commas between them. Reading them
under the format's fields gives the members back, so decoding undoes encoding for every format
whose members are laid out as its fields say.
-/
namespace PhraseArithmetic.Wire
open Json (Lexeme IsDelimiter)
open Json.Lexer (State)

def Value.kind : Value → Kind
  | .text _ => .text
  | .count _ => .count

def Value.lexeme : Value → Lexeme
  | .text s => .string (some s)
  | .count n => .number (Text.naturalDigits n.toNat)

theorem Kind.read_lexeme (v : Value) : v.kind.read v.lexeme = .ok v := by
  cases v with
  | text s => rfl
  | count n =>
    have h : n.toNat < UInt64.size := n.toNat_lt_size
    simp only [Value.kind, Value.lexeme, Kind.read, Text.natural?_naturalDigits, if_pos h,
      UInt64.ofNat_toNat]

/-- A written value and the delimiter after it. -/
theorem foldl_push_value {s : State} (h : s.mode = .between) (v : Value) {c : Char}
    (hc : IsDelimiter c) :
    (Text.symbols (v.encode ++ [c])).foldl State.push s = (s.emit v.lexeme).begin c := by
  cases v with
  | text t =>
    have hq := Json.foldl_push_quoted h t
    simp only [Text.symbols] at hq
    simp [Value.encode, Text.symbols, List.foldl_append, hq, Value.lexeme, State.push,
      State.pushChar, State.emit]
  | count n => exact Json.foldl_push_naturalDigits h n.toNat hc

theorem foldl_push_member {s : State} (h : s.mode = .between) (m : String × Value) {c : Char}
    (hc : IsDelimiter c) :
    (Text.symbols (encodeMember m ++ [c])).foldl State.push s =
      (((s.emit (.string (some m.1))).emit .colon).emit m.2.lexeme).begin c := by
  have hq := Json.foldl_push_quoted h m.1
  have hv := foldl_push_value (s := (s.emit (.string (some m.1))).emit .colon) rfl m.2 hc
  simp only [Text.symbols] at hq hv
  have hcolon : (s.emit (.string (some m.1))).push (some ':') =
      (s.emit (.string (some m.1))).emit .colon := rfl
  simp only [encodeMember, Text.symbols, List.append_assoc, List.cons_append, List.map_append,
    List.map_cons, List.foldl_append, List.foldl_cons, hq, hcolon] at hv ⊢
  exact hv

/-- The lexemes of members up to the closing brace. -/
def memberLexemes : Members → List Lexeme
  | [] => [.endObject]
  | [m] => [.string (some m.1), .colon, m.2.lexeme, .endObject]
  | m :: ms => .string (some m.1) :: .colon :: m.2.lexeme :: .comma :: memberLexemes ms

theorem foldl_push_members {s : State} (h : s.mode = .between) (ms : Members) :
    (Text.symbols ([','].intercalate (ms.map encodeMember) ++ ['}'])).foldl State.push s =
      ⟨.between, (memberLexemes ms).reverse ++ s.emitted⟩ := by
  induction ms generalizing s with
  | nil => simp [Text.symbols, State.push, State.pushChar, h]; rfl
  | cons m ms ih =>
    cases ms with
    | nil =>
      have hm := foldl_push_member h m (c := '}') ⟨by decide, by decide, by decide, by decide⟩
      simp only [List.map_cons, List.map_nil, List.intercalate_singleton, hm]
      rfl
    | cons m' ms =>
      have hm := foldl_push_member h m (c := ',') ⟨by decide, by decide, by decide, by decide⟩
      have ih :=
        ih (s := (((s.emit (.string (some m.1))).emit .colon).emit m.2.lexeme).emit .comma) rfl
      simp only [Text.symbols, List.map_cons] at hm ih ⊢
      rw [List.intercalate_cons_cons]
      have hsplit : encodeMember m ++ [','] ++
            [','].intercalate (encodeMember m' :: List.map encodeMember ms) ++ ['}'] =
          (encodeMember m ++ [',']) ++
            ([','].intercalate (encodeMember m' :: List.map encodeMember ms) ++ ['}']) := by simp
      rw [hsplit, List.map_append, List.foldl_append, hm]
      refine Eq.trans ih ?_
      simp [memberLexemes, State.emit]

theorem lexemes_encodeMembers (ms : Members) :
    Json.lexemes (Text.symbols (encodeMembers ms)) = .beginObject :: memberLexemes ms := by
  have h := foldl_push_members (s := State.start.emit .beginObject) rfl ms
  simp only [Text.symbols] at h
  have hopen : State.start.push (some '{') = State.start.emit .beginObject := rfl
  simp only [Json.lexemes, encodeMembers, Text.symbols, List.cons_append, List.map_cons,
    List.foldl_cons, hopen, h]
  simp [State.finish, State.emit, State.start]

/-- Members that a list of fields describes, in the same order. -/
def Describes (fields : List Field) (ms : Members) : Prop :=
  ms.map (fun m => Field.mk m.1 m.2.kind) = fields

theorem find?_of_mem {fields : List Field} (hn : (fields.map Field.name).Nodup) {f : Field}
    (hf : f ∈ fields) : fields.find? (·.name == f.name) = some f := by
  induction fields with
  | nil => simp at hf
  | cons g fields ih =>
    rw [List.map_cons, List.nodup_cons] at hn
    rcases List.mem_cons.1 hf with rfl | hf
    · simp
    · have hne : g.name ≠ f.name := fun he => hn.1 (he ▸ List.mem_map_of_mem hf)
      simp [hne, ih hn.2 hf]

/-- Reads the members that are left, from before a key or, when there are none yet, the end. -/
theorem run_memberLexemes {fields : List Field} (hn : (fields.map Field.name).Nodup)
    {found ms : Members} (hd : Describes fields (found ++ ms)) {p : Place}
    (hp : p = .firstKey ∨ (p = .key ∧ ms ≠ [])) (rest : List Lexeme) :
    (Reading.mk p found).run fields (memberLexemes ms ++ rest) = .ok (found ++ ms, rest) := by
  induction ms generalizing found p with
  | nil =>
    rcases hp with rfl | ⟨_, h⟩
    · simp [memberLexemes, Reading.run, Reading.step, Reading.goto]
    · exact absurd rfl h
  | cons m ms ih =>
    have hmem : Field.mk m.1 m.2.kind ∈ fields := by rw [← hd]; simp
    have hfind := find?_of_mem hn hmem
    have hfresh : found.any (·.1 == m.1) = false := by
      have hnames : ((found ++ m :: ms).map Prod.fst).Nodup := by
        rw [← hd] at hn
        simpa [List.map_map, Function.comp_def] using hn
      rw [List.map_append, List.map_cons, List.nodup_append] at hnames
      rw [List.any_eq_false]
      intro x hx he
      exact hnames.2.2 x.1 (List.mem_map_of_mem hx) m.1 (by simp) (by simpa using he)
    have hkey : (Reading.mk p found).step fields (.string (some m.1)) =
        .ok ⟨.colon (some ⟨m.1, m.2.kind⟩), found⟩ := by
      rcases hp with rfl | ⟨rfl, _⟩ <;>
        simp [Reading.step, Reading.keyStep, hfind, hfresh, Reading.goto]
    have hplace : p ≠ .closed := by rcases hp with rfl | ⟨rfl, _⟩ <;> simp
    have hmember (l : List Lexeme) :
        (Reading.mk p found).run fields
            (.string (some m.1) :: .colon :: m.2.lexeme :: l) =
          (Reading.mk .afterMember (found ++ [m])).run fields l := by
      rw [Reading.run_cons fields hplace hkey, Reading.run_cons fields (by simp) rfl,
        Reading.run_cons fields (t := ⟨.afterMember, found ++ [m]⟩) (by simp [Reading.goto])]
      simp [Reading.step, Reading.goto, Reading.add, Kind.read_lexeme, bind, Except.bind]
    have hd' : Describes fields ((found ++ [m]) ++ ms) := by simpa [Describes] using hd
    cases ms with
    | nil =>
      simp only [memberLexemes, List.cons_append, List.nil_append, hmember]
      simp [Reading.run, Reading.step, Reading.goto]
    | cons m' ms =>
      have ih := ih hd' (p := .key) (.inr ⟨rfl, by simp⟩)
      simp only [memberLexemes, List.cons_append, hmember]
      rw [Reading.run_cons fields (t := ⟨.key, found ++ [m]⟩) (by simp) rfl, ih]
      simp

namespace Format

/-- A format whose members are those its fields describe, each once, and can be read back. -/
structure IsLawful {α : Type} (f : Format α) : Prop where
  nodup : (f.fields.map Field.name).Nodup
  describes : ∀ message, Describes f.fields (f.members message)
  ofMembers?_members : ∀ message, f.ofMembers? (f.members message) = some message

theorem IsLawful.decode_encodeChars {α : Type} {f : Format α} (h : f.IsLawful) (message : α) :
    f.decode (Text.symbols (f.encodeChars message)) = .ok message := by
  have hd : Describes f.fields ([] ++ f.members message) := h.describes message
  have hrun := run_memberLexemes h.nodup hd (p := .firstKey) (.inl rfl) []
  have hall : Reading.start.run f.fields (.beginObject :: memberLexemes (f.members message)) =
      .ok (f.members message, []) := by
    simpa [Reading.start, Reading.run, Reading.step, Reading.goto] using hrun
  simp [decode, readFirst, encodeChars, lexemes_encodeMembers, hall, h.ofMembers?_members]

theorem IsLawful.decode_encode {α : Type} {f : Format α} (h : f.IsLawful) (message : α) :
    f.decode (Text.symbols (f.encode message).toList) = .ok message := by
  simpa [encode] using h.decode_encodeChars message

end Format

theorem requestFormat_isLawful : requestFormat.IsLawful :=
  ⟨by decide, fun _ => rfl, fun _ => rfl⟩

theorem responseFormat_isLawful : responseFormat.IsLawful :=
  ⟨by decide, fun _ => rfl, fun _ => rfl⟩

theorem recordFormat_isLawful : recordFormat.IsLawful :=
  ⟨by decide, fun _ => rfl, fun _ => rfl⟩

theorem healthFormat_isLawful : healthFormat.IsLawful :=
  ⟨by decide, fun _ => rfl, fun _ => rfl⟩

end PhraseArithmetic.Wire
