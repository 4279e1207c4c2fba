import Mathlib.Logic.ExistsUnique
import PhraseArithmetic.Service

/-!
# The words of a text

A text comes apart into words and blanks in one way: a word ends where a blank or the end of the
text comes, and no character of a word is blank. Scanning classifies the words one by one, so the
blanks count only for where they stand between words.
-/
namespace PhraseArithmetic
namespace Text

/-- The code points of the blanks, one by one. -/
def blankPoints : List Nat :=
  [0x0009, 0x000A, 0x000B, 0x000C, 0x000D, 0x0020, 0x0085, 0x00A0, 0x1680, 0x2000, 0x2001, 0x2002,
   0x2003, 0x2004, 0x2005, 0x2006, 0x2007, 0x2008, 0x2009, 0x200A, 0x2028, 0x2029, 0x202F, 0x205F,
   0x3000]

theorem isBlank_iff_mem_blankPoints {c : Char} :
    isBlank c = true ↔ c.toNat ∈ blankPoints := by
  simp [isBlank, blankRanges, blankPoints]
  omega

def IsGap (text : List Char) : Prop := ∀ c ∈ text, isBlank c = true

structure IsWord (text : List Char) : Prop where
  ne_nil : text ≠ []
  isBlank_eq_false : ∀ c ∈ text, isBlank c = false

/-- The words of a text from the left. Before each word and after the last there may be blanks, and
a word that something follows has a blank right behind it. -/
inductive Runs : List Char → List (List Char) → Prop where
  | gap {gap : List Char} (h : IsGap gap) : Runs gap []
  | word {gap word rest : List Char} {words : List (List Char)} (hgap : IsGap gap)
      (hword : IsWord word) (hrest : ∀ c ∈ rest.head?, isBlank c = true) (h : Runs rest words) :
      Runs (gap ++ word ++ rest) (word :: words)

section
variable {gap text : List Char} {ws : List (List Char)} {c : Char}

theorem isGap_nil : IsGap [] := by simp [IsGap]

theorem IsGap.cons (hc : isBlank c = true) (h : IsGap gap) : IsGap (c :: gap) :=
  List.forall_mem_cons.2 ⟨hc, h⟩

theorem IsWord.singleton (hc : isBlank c = false) : IsWord [c] := ⟨by simp, by simp [hc]⟩

theorem IsWord.cons (hc : isBlank c = false) (h : IsWord text) : IsWord (c :: text) :=
  ⟨by simp, List.forall_mem_cons.2 ⟨hc, h.isBlank_eq_false⟩⟩

theorem words_cons_blank (hc : isBlank c = true) (text : List Char) :
    words (c :: text) = words text := by
  have hseam := words_append_blank [] text hc
  rwa [List.nil_append, words_nil, List.nil_append] at hseam

theorem words_gap_append (h : IsGap gap) (text : List Char) : words (gap ++ text) = words text := by
  induction gap with
  | nil => rfl
  | cons c gap ih =>
    obtain ⟨hc, hgap⟩ := List.forall_mem_cons.1 h
    rw [List.cons_append, words_cons_blank hc, ih hgap]

theorem Runs.words_eq (h : Runs text ws) : words text = ws := by
  induction h with
  | gap h => exact words_eq_nil h
  | @word gap word rest ws hgap hword hrest _ ih =>
    have hsingle : words word = [word] := words_eq_singleton hword.1 hword.2
    rw [List.append_assoc, words_gap_append hgap]
    cases rest with
    | nil =>
      rw [words_nil] at ih
      rw [List.append_nil, hsingle, ih]
    | cons c rest =>
      have hc : isBlank c = true := hrest c rfl
      rw [words_cons_blank hc] at ih
      rw [words_append_blank _ _ hc, hsingle, ih, List.singleton_append]

theorem Runs.cons_blank (hc : isBlank c = true) (h : Runs text ws) : Runs (c :: text) ws := by
  cases h with
  | gap h => exact .gap (h.cons hc)
  | word hgap hword hrest h => exact .word (hgap.cons hc) hword hrest h

/-- A character in front of a word is part of it, and in front of a blank it is a word. -/
theorem Runs.exists_cons (hc : isBlank c = false) (h : Runs text ws) :
    ∃ ws, Runs (c :: text) ws := by
  have hstart (hblank : ∀ d ∈ text.head?, isBlank d = true) : Runs (c :: text) ([c] :: ws) :=
    .word isGap_nil (.singleton hc) hblank h
  cases h with
  | gap hgap => exact ⟨_, hstart fun d hd => hgap d (List.mem_of_mem_head? hd)⟩
  | @word gap word rest ws hgap hword hrest h =>
    cases gap with
    | nil => exact ⟨_, .word isGap_nil (hword.cons hc) hrest h⟩
    | cons d gap => exact ⟨_, hstart fun e he => hgap e (by simp_all)⟩

theorem exists_runs (text : List Char) : ∃ ws, Runs text ws := by
  induction text with
  | nil => exact ⟨[], .gap isGap_nil⟩
  | cons c text ih =>
    obtain ⟨ws, h⟩ := ih
    cases hc : isBlank c with
    | true => exact ⟨ws, h.cons_blank hc⟩
    | false => exact h.exists_cons hc

theorem runs_iff_words_eq : Runs text ws ↔ words text = ws := by
  constructor
  · exact Runs.words_eq
  · rintro rfl
    obtain ⟨ws, h⟩ := exists_runs text
    rwa [h.words_eq]

end
end Text

namespace Token

theorem scan_of_runs {text : String} {ws : List (List Char)} (h : Text.Runs text.toList ws) :
    scan text = ws.map fun word => classify (String.ofList word) := by
  rw [scan, h.words_eq]

/-- Twenty-five characters are blank. Each of them is a seam between tokens, a text of blanks has no
tokens, and one without a blank is a single word. Every text comes apart into words in just one way,
and its tokens are the classified words; texts with the same words have the same value or fault and
the same verdict. -/
theorem scan_depends_on_words :
    (∀ c, Text.isBlank c = true ↔ c.toNat ∈ Text.blankPoints) ∧
    (∀ (front back : String) (blank : Char), Text.isBlank blank = true →
      scan (front ++ String.singleton blank ++ back) = scan front ++ scan back) ∧
    (∀ text : String, (∀ c ∈ text.toList, Text.isBlank c = true) → scan text = []) ∧
    (∀ text : String, text ≠ "" → (∀ c ∈ text.toList, Text.isBlank c = false) →
      scan text = [classify text]) ∧
    (∀ text : String, ∃! words, Text.Runs text.toList words) ∧
    (∀ (text : String) (words : List (List Char)), Text.Runs text.toList words →
      scan text = words.map fun word => classify (String.ofList word)) ∧
    ∀ (text text' : String) (words : List (List Char)), Text.Runs text.toList words →
      Text.Runs text'.toList words → ∀ q : Inquiry, q.judge text = q.judge text' := by
  refine ⟨fun c => Text.isBlank_iff_mem_blankPoints, fun front back blank hblank =>
    scan_append_singleton_append front back hblank, ?_, ?_, ?_, fun text words => scan_of_runs, ?_⟩
  · intro text h
    exact scan_of_runs (.gap h)
  · intro text hne h
    have hword : Text.IsWord text.toList := ⟨by simpa using hne, h⟩
    have hruns : Text.Runs ([] ++ text.toList ++ []) [text.toList] :=
      .word Text.isGap_nil hword (by simp) (.gap Text.isGap_nil)
    rw [List.nil_append, List.append_nil] at hruns
    simp [scan_of_runs hruns]
  · intro text
    exact ⟨_, Text.runs_iff_words_eq.2 rfl, fun words h => h.words_eq.symm⟩
  · intro text text' words h h' q
    cases q with
    | value => rw [Inquiry.judge, Inquiry.judge, scan_of_runs h, scan_of_runs h']
    | validity => rw [Inquiry.judge, Inquiry.judge, scan_of_runs h, scan_of_runs h']

/-- Characters that look or once were blank are parts of words. -/
example : scan "5\u200bplus\u3000\x1c3" = [unrecognized "5\u200bplus", unrecognized "\x1c3"] := by
  decide +kernel

end Token
end PhraseArithmetic
