/-!
# Request targets
-/
namespace PhraseArithmetic.Http

/-- Everything after the first `://`. -/
def afterScheme? : List Char → Option (List Char)
  | [] => none
  | ':' :: '/' :: '/' :: rest => some rest
  | _ :: rest => afterScheme? rest

/-- The path of a target, without scheme, authority, query and fragment. -/
def targetPath (target : String) : String :=
  let isPathChar := fun c => c ≠ '?' && c ≠ '#'
  let isAuthorityChar := fun c => c ≠ '/' && c ≠ '?' && c ≠ '#'
  let text := target.toList
  if text.head? = some '/' then String.ofList (text.takeWhile isPathChar)
  else match afterScheme? text with
    | some rest => String.ofList ((rest.dropWhile isAuthorityChar).takeWhile isPathChar)
    | none => String.ofList (text.takeWhile isPathChar)

end PhraseArithmetic.Http
