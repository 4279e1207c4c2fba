import PhraseArithmetic.Launch.Directive

/-!
# Log filters

A filter is a list of directives separated by commas. Of those that fit a source the most specific
one decides, and of equals the last. A filter without directives lets errors through.
-/
namespace PhraseArithmetic.Launch
open Log (Level)

structure Filter where
  directives : List Directive
  /-- The directives that were left out, with the reasons. -/
  ignored : List (List Char × DirectiveFault)
  deriving DecidableEq, Repr

namespace Filter

def add (f : Filter) (part : List Char) : Filter :=
  match Directive.parse part with
  | .ok d => { f with directives := f.directives ++ [d] }
  | .error fault => { f with ignored := f.ignored ++ [(part, fault)] }

/-- Empty parts between commas are no directives. -/
def parse (text : String) : Filter :=
  let parts := (Text.parts ',' text.toList).filter fun part => !part.isEmpty
  let f := parts.foldl add ⟨[], []⟩
  if f.directives.isEmpty then { f with directives := [.errors] } else f

/-- The most specific of the directives that fit. -/
def deciding? (f : Filter) (source : List Char) : Option Directive :=
  (f.directives.filter (·.fits source)).foldl
    (fun best d => match best with
      | some b => if b.weight ≤ d.weight then some d else some b
      | none => some d)
    none

def passes (f : Filter) (source : String) (level : Level) : Bool :=
  (f.deciding? source.toList).any fun d => level.detail ≤ d.limit

end Filter
end PhraseArithmetic.Launch
