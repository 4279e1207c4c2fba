/-!
# Blank characters and the words between them

Twenty-five characters separate words. The words of a text are its maximal blank-free runs, in
order; a seam at a blank splits a text's words into the words of its two sides.
-/
namespace PhraseArithmetic.Text

/-- Inclusive ranges of code points, in ascending order. -/
def blankRanges : List (Nat × Nat) :=
  [(0x0009, 0x000D), (0x0020, 0x0020), (0x0085, 0x0085), (0x00A0, 0x00A0), (0x1680, 0x1680),
   (0x2000, 0x200A), (0x2028, 0x2029), (0x202F, 0x202F), (0x205F, 0x205F), (0x3000, 0x3000)]

def isBlank (c : Char) : Bool := blankRanges.any fun r => r.1 ≤ c.toNat && c.toNat ≤ r.2

/-- The words to the right of a point in a text, and the start of one that may grow leftward. -/
structure Split where
  growing : List Char
  found : List (List Char)

namespace Split

def empty : Split := ⟨[], []⟩

def close (s : Split) : List (List Char) :=
  if s.growing.isEmpty then s.found else s.growing :: s.found

def push (c : Char) (s : Split) : Split :=
  if isBlank c then ⟨[], s.close⟩ else ⟨c :: s.growing, s.found⟩

end Split

def words (text : List Char) : List (List Char) := (text.foldr Split.push .empty).close

@[simp] theorem words_nil : words [] = [] := rfl

theorem foldr_push_found (a : List Char) (w : List Char) (ws : List (List Char)) :
    a.foldr Split.push ⟨w, ws⟩ =
      ⟨(a.foldr Split.push ⟨w, []⟩).growing, (a.foldr Split.push ⟨w, []⟩).found ++ ws⟩ := by
  induction a with
  | nil => rfl
  | cons c a ih =>
    simp only [List.foldr_cons, Split.push, Split.close, ih]
    by_cases hc : isBlank c = true
    · by_cases hg : (a.foldr Split.push ⟨w, []⟩).growing = [] <;> simp [hc, hg]
    · simp [hc]

/-- A blank is a seam: the words of both sides are found independently. -/
theorem words_append_blank (a b : List Char) {c : Char} (hc : isBlank c = true) :
    words (a ++ c :: b) = words a ++ words b := by
  simp only [words, List.foldr_append, List.foldr_cons, Split.push, hc, if_true]
  rw [foldr_push_found]
  by_cases hg : (a.foldr Split.push ⟨[], []⟩).growing = [] <;> simp [Split.close, Split.empty, hg]

theorem words_eq_nil {text : List Char} (h : ∀ c ∈ text, isBlank c = true) : words text = [] := by
  induction text with
  | nil => rfl
  | cons c text ih =>
    have hs := words_append_blank [] text (h c (by simp))
    rw [List.nil_append, words_nil, List.nil_append] at hs
    rw [hs]
    exact ih fun d hd => h d (by simp [hd])

theorem foldr_push_letters {word : List Char} (h : ∀ c ∈ word, isBlank c = false) (s : Split) :
    word.foldr Split.push s = ⟨word ++ s.growing, s.found⟩ := by
  induction word with
  | nil => rfl
  | cons c word ih =>
    rw [List.foldr_cons, ih fun d hd => h d (by simp [hd])]
    simp [Split.push, h c (by simp)]

theorem words_eq_singleton {word : List Char} (hne : word ≠ [])
    (h : ∀ c ∈ word, isBlank c = false) : words word = [word] := by
  simp [words, foldr_push_letters h, Split.close, Split.empty, hne]

end PhraseArithmetic.Text
