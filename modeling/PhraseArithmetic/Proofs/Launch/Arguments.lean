import PhraseArithmetic.Launch.Arguments

/-!
# Command lines that give each flag at most once

A flag and its value are two arguments, or one with an equals sign between them. What a command line
made of such arguments gives depends on neither the forms nor the order.
-/
namespace PhraseArithmetic.Launch

def Flag.name : Flag → String
  | config => "config"
  | listen => "listen"

/-- A value that cannot be taken for a flag or for a missing value. -/
structure IsValue (value : String) : Prop where
  ne_nil : value.toList ≠ []
  head_ne : value.toList.head? ≠ some '-'

/-- The arguments for one flag, which may be left out. -/
inductive SpellsFlag (f : Flag) : Option String → List String → Prop where
  | omitted : SpellsFlag f none []
  | apart {value : String} (h : IsValue value) : SpellsFlag f (some value) ["--" ++ f.name, value]
  | joined {value : String} (h : IsValue value) :
      SpellsFlag f (some value) ["--" ++ f.name ++ "=" ++ value]

/-- Both flags, each at most once and in either order. -/
def Spells (given : Given) (arguments : List String) : Prop :=
  ∃ config listen, SpellsFlag .config given.config config ∧ SpellsFlag .listen given.listen listen ∧
    (arguments = config ++ listen ∨ arguments = listen ++ config)

namespace Argument

theorem ofString_name (f : Flag) : ofString ("--" ++ f.name) = .long f.name none := by
  cases f with
  | config => decide
  | listen => decide

theorem ofString_name_value (f : Flag) (value : String) :
    ofString ("--" ++ f.name ++ "=" ++ value) = .long f.name (some value) := by
  cases f with
  | config => simp [ofString, Flag.name]
  | listen => simp [ofString, Flag.name]

theorem ofString_value {value : String} (h : IsValue value) : ofString value = .plain := by
  obtain ⟨hne, hhead⟩ := h
  rw [ofString]
  cases hvalue : value.toList with
  | nil => exact absurd hvalue hne
  | cons c rest =>
    have hc : c ≠ '-' := by
      rintro rfl
      exact hhead (by rw [hvalue]; rfl)
    simp [hc]

end Argument

/-- What is given when a flag comes with a value or is left out. -/
def Given.put (given : Given) (f : Flag) (value : Option String) : Given :=
  value.elim given (given.set f)

theorem Given.get_put_of_ne (given : Given) {f f' : Flag} (h : f' ≠ f) (value : Option String) :
    (given.put f value).get f' = given.get f' := by
  cases value with
  | none => rfl
  | some value => cases f <;> cases f' <;> first | rfl | exact absurd rfl h

namespace Progress

/-- Reading goes on behind the arguments from another state. -/
def Passes (p p' : Progress) (arguments : List String) : Prop :=
  ∀ rest, p.read (arguments ++ rest) = p'.read rest

variable {p p' : Progress} {given : Given} {f : Flag} {value : String}

theorem Passes.append {p'' : Progress} {a b : List String} (h : p.Passes p' a)
    (h' : p'.Passes p'' b) : p.Passes p'' (a ++ b) := by
  intro rest
  rw [List.append_assoc, h, h']

theorem read_flag (p : Progress) (f : Flag) (value : Option String) {argument : String}
    (h : Argument.ofString argument = .long f.name value) (rest : List String) :
    p.read (argument :: rest) = (p.flag f value).bind fun p' => p'.read rest := by
  cases f with
  | config => simp only [read, h]; rfl
  | listen => simp only [read, h]; rfl

theorem take_of_isValue (hfree : given.get f = none) (h : IsValue value) :
    given.take f (some value) = .ok (given.set f value) := by
  have hne : value ≠ "" := by
    rintro rfl
    exact h.ne_nil rfl
  simp [Given.take, hfree, hne]

theorem exists_passes (hp : p.settle = .ok given) (hfree : given.get f = none)
    {value : Option String} {arguments : List String} (h : SpellsFlag f value arguments) :
    ∃ p', p.Passes p' arguments ∧ p'.settle = .ok (given.put f value) := by
  cases h with
  | omitted => exact ⟨p, fun rest => rfl, hp⟩
  | @apart value hvalue =>
    refine ⟨⟨given, some (f, some value)⟩, fun rest => ?_, take_of_isValue hfree hvalue⟩
    have hflag : p.flag f none = .ok ⟨given, some (f, none)⟩ := by rw [flag, hp]; rfl
    rw [List.cons_append, read_flag p f none (Argument.ofString_name f), hflag]
    simp [Except.bind, read, Argument.ofString_value hvalue]
  | @joined value hvalue =>
    refine ⟨⟨given.set f value, none⟩, fun rest => ?_, rfl⟩
    have hflag : p.flag f (some value) = .ok ⟨given.set f value, none⟩ := by
      rw [flag, hp]
      change (given.take f (some value)).bind _ = _
      rw [take_of_isValue hfree hvalue]
      rfl
    rw [List.cons_append, read_flag p f _ (Argument.ofString_name_value f value), hflag]
    rfl

end Progress

theorem ofArguments_append {f f' : Flag} (hne : f' ≠ f) {value value' : Option String}
    {a b : List String} (h : SpellsFlag f value a) (h' : SpellsFlag f' value' b) :
    Invocation.ofArguments (a ++ b) = .ok (.run ((Given.none.put f value).put f' value')) := by
  have hfree (f : Flag) : Given.none.get f = none := by cases f <;> rfl
  have hstart : Progress.start.settle = .ok .none := rfl
  obtain ⟨p, hpasses, hp⟩ := Progress.exists_passes hstart (hfree f) h
  have hfree' : (Given.none.put f value).get f' = none := by
    rw [Given.get_put_of_ne _ hne, hfree]
  obtain ⟨p', hpasses', hp'⟩ := Progress.exists_passes hp hfree' h'
  calc Invocation.ofArguments (a ++ b)
      = Progress.start.read (a ++ b ++ []) := by rw [List.append_nil, Invocation.ofArguments]
    _ = p'.read [] := hpasses.append hpasses' []
    _ = _ := by rw [Progress.read, hp']; rfl

/-- A command line gives what it spells, whatever the forms and the order. -/
theorem Spells.ofArguments_eq {given : Given} {arguments : List String}
    (h : Spells given arguments) : Invocation.ofArguments arguments = .ok (.run given) := by
  obtain ⟨a, b, hconfig, hlisten, hforward | hbackward⟩ := h
  · have hgiven : (Given.none.put .config given.config).put .listen given.listen = given := by
      obtain ⟨_ | _, _ | _⟩ := given <;> rfl
    rw [hforward, ofArguments_append (by decide) hconfig hlisten, hgiven]
  · have hgiven : (Given.none.put .listen given.listen).put .config given.config = given := by
      obtain ⟨_ | _, _ | _⟩ := given <;> rfl
    rw [hbackward, ofArguments_append (by decide) hlisten hconfig, hgiven]

end PhraseArithmetic.Launch
