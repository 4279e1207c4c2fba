/-!
# Octets and the characters they spell

A text is a list of symbols when it may come from untrusted octets: a symbol is a character, or
one octet that begins no character.
-/
namespace PhraseArithmetic.Text

/-- `none` stands for an octet that is part of no well-formed character. -/
abbrev Symbol := Option Char

def symbols (text : List Char) : List Symbol := text.map some

/-- The symbols from offset `i` on, put in front of `read`, which is in reverse order. -/
def octetSymbolsFrom (octets : ByteArray) (i : Nat) (read : List Symbol) : List Symbol :=
  if i < octets.size then
    match octets.utf8DecodeChar? i with
    | some c => octetSymbolsFrom octets (i + c.utf8Size) (some c :: read)
    | none => octetSymbolsFrom octets (i + 1) (none :: read)
  else read.reverse
termination_by octets.size - i
decreasing_by
  · have := c.utf8Size_pos
    omega
  · omega

/-- Characters where the octets are well formed; elsewhere one symbol for each stray octet. -/
def octetSymbols (octets : ByteArray) : List Symbol := octetSymbolsFrom octets 0 []

theorem octetSymbolsFrom_append_read (b : ByteArray) (i : Nat) (read earlier : List Symbol) :
    octetSymbolsFrom b i (read ++ earlier) = earlier.reverse ++ octetSymbolsFrom b i read := by
  fun_induction octetSymbolsFrom b i read with
  | case1 i read hi c hc ih =>
    rw [octetSymbolsFrom.eq_def, if_pos hi]
    simpa [hc] using ih
  | case2 i read hi hc ih =>
    rw [octetSymbolsFrom.eq_def, if_pos hi]
    simpa [hc] using ih
  | case3 i read hi =>
    rw [octetSymbolsFrom.eq_def, if_neg hi]
    simp

theorem utf8DecodeChar?_append_right (a b : ByteArray) (i : Nat) :
    (a ++ b).utf8DecodeChar? (a.size + i) = b.utf8DecodeChar? i := by
  rw [ByteArray.utf8DecodeChar?_eq_utf8DecodeChar?_extract,
    ByteArray.utf8DecodeChar?_eq_utf8DecodeChar?_extract (b := b), ByteArray.size_append,
    ByteArray.extract_append_size_add]

theorem octetSymbolsFrom_append_octets (a b : ByteArray) (i : Nat) (read : List Symbol) :
    octetSymbolsFrom (a ++ b) (a.size + i) read = octetSymbolsFrom b i read := by
  fun_induction octetSymbolsFrom b i read with
  | case1 i read hi c hc ih =>
    rw [octetSymbolsFrom.eq_def, if_pos (by simp; omega), utf8DecodeChar?_append_right, hc]
    simpa [Nat.add_assoc] using ih
  | case2 i read hi hc ih =>
    rw [octetSymbolsFrom.eq_def, if_pos (by simp; omega), utf8DecodeChar?_append_right, hc]
    simpa [Nat.add_assoc] using ih
  | case3 i read hi =>
    rw [octetSymbolsFrom.eq_def, if_neg (by simp; omega)]

/-- Well-formed octets in front are read as their characters, whatever follows. -/
theorem octetSymbols_utf8Encode_append (text : List Char) (b : ByteArray) :
    octetSymbols (text.utf8Encode ++ b) = symbols text ++ octetSymbols b := by
  induction text with
  | nil => simp [symbols]
  | cons c text ih =>
    have hsize : [c].utf8Encode.size = c.utf8Size := by simp [List.utf8Encode_singleton]
    have hpos := c.utf8Size_pos
    rw [List.utf8Encode_cons, ByteArray.append_assoc, octetSymbols, octetSymbolsFrom.eq_def,
      if_pos (by simp [hsize]; omega), List.utf8DecodeChar?_utf8Encode_singleton_append]
    simp only [Nat.zero_add]
    rw [← hsize, ← Nat.add_zero [c].utf8Encode.size, octetSymbolsFrom_append_octets]
    have h := octetSymbolsFrom_append_read (text.utf8Encode ++ b) 0 [] [some c]
    simp only [List.nil_append] at h
    rw [h]
    simpa [octetSymbols, symbols] using ih

theorem octetSymbols_toUTF8 (s : String) : octetSymbols s.toUTF8 = symbols s.toList := by
  have h := octetSymbols_utf8Encode_append s.toList .empty
  rw [ByteArray.append_empty] at h
  have hs : s.toUTF8 = s.toList.utf8Encode := by
    rw [← String.toByteArray_ofList, String.ofList_toList]
    rfl
  rw [hs, h]
  simp [octetSymbols, octetSymbolsFrom]

def octets (text : String) : List UInt8 := text.toUTF8.data.toList

end PhraseArithmetic.Text
