import PhraseArithmetic.Http.MediaType
import PhraseArithmetic.Http.Target
import PhraseArithmetic.Text.Numeral

/-!
# Requests and responses
-/
namespace PhraseArithmetic.Http

structure Request where
  method : String
  target : String
  headers : List (String × String)
  body : ByteArray

namespace Request

/-- The first header of a name, which is given in lower case. -/
def header? (r : Request) (name : String) : Option String :=
  (r.headers.find? fun h => h.1.toList.map Char.toLower == name.toList).map Prod.snd

/-- The declared length, if there is one and it is an unsigned 64-bit number. -/
def contentLength? (r : Request) : Option Nat :=
  (r.header? "content-length").bind fun value => Text.unsigned? 64 value.toList

def hasJsonContent (r : Request) : Bool := (r.header? "content-type").any isJsonContentType

def path (r : Request) : String := targetPath r.target

end Request

structure Response where
  status : Nat
  contentType : Option String
  allow : Option String
  body : String
  deriving DecidableEq, Repr

namespace Response

def empty (status : Nat) : Response := ⟨status, none, none, ""⟩

def json (status : Nat) (body : String) : Response := ⟨status, some "application/json", none, body⟩

def plain (status : Nat) (body : String) : Response :=
  ⟨status, some "text/plain; charset=utf-8", none, body⟩

end Response
end PhraseArithmetic.Http
