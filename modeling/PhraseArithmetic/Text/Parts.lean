/-!
# The parts of a text between separators

A text with `n` separators has `n + 1` parts, some of which may be empty; a separator is a seam.
-/
namespace PhraseArithmetic.Text

/-- Adds a character in front of the first part, or opens a new one. -/
def pushPart (separator c : Char) (s : List Char × List (List Char)) :
    List Char × List (List Char) :=
  if c = separator then ([], s.1 :: s.2) else (c :: s.1, s.2)

def parts (separator : Char) (text : List Char) : List (List Char) :=
  let s := text.foldr (pushPart separator) ([], [])
  s.1 :: s.2

theorem foldr_pushPart_snd (separator : Char) (a p : List Char) (ps : List (List Char)) :
    a.foldr (pushPart separator) (p, ps) =
      ((a.foldr (pushPart separator) (p, [])).1,
        (a.foldr (pushPart separator) (p, [])).2 ++ ps) := by
  induction a with
  | nil => rfl
  | cons c a ih =>
    simp only [List.foldr_cons, ih, pushPart]
    by_cases hc : c = separator <;> simp [hc]

theorem parts_append_separator (separator : Char) (a b : List Char) :
    parts separator (a ++ separator :: b) = parts separator a ++ parts separator b := by
  simp only [parts, List.foldr_append, List.foldr_cons, pushPart, if_true]
  rw [foldr_pushPart_snd]
  simp

theorem parts_eq_singleton {separator : Char} {text : List Char} (h : separator ∉ text) :
    parts separator text = [text] := by
  induction text with
  | nil => rfl
  | cons c text ih =>
    rw [List.mem_cons, not_or] at h
    have hp := ih h.2
    simp only [parts, List.cons.injEq] at hp
    simp [parts, pushPart, Ne.symm h.1, hp.1, hp.2]

end PhraseArithmetic.Text
