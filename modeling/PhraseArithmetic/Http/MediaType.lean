/-!
# Media types

A media type is a type, a slash and a subtype, which may end in a plus sign and a suffix, and then
any number of parameters, each a name, an equals sign and a value. The parameters are checked and
dropped.
-/
namespace PhraseArithmetic.Http

/-- The characters of type names and of unquoted parameters. -/
def isTokenChar (c : Char) : Bool :=
  c.isAlphanum || "!#$%&'*+-.^_`|~".toList.contains c

/-- Where reading stands in a list of parameters. -/
inductive ParameterPhase where
  | start
  | name
  | valueStart
  | value
  | quoteStart
  | quoted
  | afterQuote
  deriving DecidableEq, Repr

namespace ParameterPhase

/-- A list may end before a name, in or before a plain value, and after a quoted one. -/
def mayEnd : ParameterPhase → Bool
  | start | valueStart | value | afterQuote => true
  | name | quoteStart | quoted => false

def isQuotable (c : Char) : Bool := ' ' ≤ c && c ≠ '\x7f'

/-- A quotation mark right after the opening one is content. -/
def next? (p : ParameterPhase) (c : Char) : Option ParameterPhase :=
  match p with
  | start => if c = ' ' then some start else if isTokenChar c then some name else none
  | name => if isTokenChar c then some name else if c = '=' then some valueStart else none
  | valueStart => if c = '"' then some quoteStart else if isTokenChar c then some value else none
  | value => if isTokenChar c then some value else if c = ';' then some start else none
  | quoteStart => if isQuotable c then some quoted else none
  | quoted => if c = '"' then some afterQuote else if isQuotable c then some quoted else none
  | afterQuote => if c = ' ' then some afterQuote else if c = ';' then some start else none

def accepts (p : ParameterPhase) : List Char → Bool
  | [] => p.mayEnd
  | c :: rest =>
    match p.next? c with
    | some q => q.accepts rest
    | none => false

end ParameterPhase

structure MediaType where
  type : List Char
  subtype : List Char
  suffix : Option (List Char)
  deriving DecidableEq, Repr

namespace MediaType

/-- The last plus sign that is not in front parts a subtype from its suffix. -/
def splitSuffix (name : List Char) : List Char × Option (List Char) :=
  let tail := (name.reverse.takeWhile (· ≠ '+')).reverse
  let front := name.take (name.length - tail.length - 1)
  if front.isEmpty then (name, none) else (front, some tail)

/-- A semicolon may not stand in front of a subtype. -/
def ofNames? (type afterSlash : List Char) : Option MediaType :=
  let name := afterSlash.takeWhile isTokenChar
  let (subtype, suffix) := splitSuffix name
  match afterSlash.dropWhile isTokenChar with
  | [] => some ⟨type, subtype, suffix⟩
  | ';' :: parameters =>
    if !name.isEmpty && ParameterPhase.start.accepts parameters then some ⟨type, subtype, suffix⟩
    else none
  | _ => none

def parse? (text : List Char) : Option MediaType :=
  let type := text.takeWhile isTokenChar
  match text.dropWhile isTokenChar with
  | '/' :: rest => if type.isEmpty then none else ofNames? type rest
  | _ => none

def isNamed (name : List Char) (expected : String) : Bool :=
  name.map Char.toLower == expected.toList

def isJson (m : MediaType) : Bool :=
  isNamed m.type "application" &&
    (isNamed m.subtype "json" || m.suffix.any (isNamed · "json"))

end MediaType

/-- The characters that a header value may have to be read as text. -/
def isHeaderText (value : List Char) : Bool :=
  value.all fun c => c = '\t' || (' ' ≤ c && c ≤ '~')

def isJsonContentType (value : String) : Bool :=
  isHeaderText value.toList && ((MediaType.parse? value.toList).any MediaType.isJson)

end PhraseArithmetic.Http
