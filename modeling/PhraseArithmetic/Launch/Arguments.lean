import PhraseArithmetic.Text.Terminal

/-!
# Command-line arguments

There are two flags that take a value, given after an equals sign or as the next argument, and two
switches. Arguments are read from the left; a flag's own faults show only when the argument after
its value is met, or the end, and an argument that is not known at all shows at once.
-/
namespace PhraseArithmetic.Launch

/-- A flag that takes a value. -/
inductive Flag where
  | config
  | listen
  deriving DecidableEq, Repr

inductive Switch where
  | help
  | version
  deriving DecidableEq, Repr

def Flag.label : Flag → String
  | config => "--config <CONFIG>"
  | listen => "--listen <LISTEN>"

def Switch.label : Switch → String
  | help => "--help"
  | version => "--version"

inductive UsageFault where
  | unexpectedArgument (argument : String)
  | missingValue (flag : Flag)
  | repeated (flag : Flag)
  | unexpectedValue (value : String) (switch : Switch)
  deriving DecidableEq, Repr

/-- What was given is named in the message as a terminal prints it. -/
def UsageFault.message : UsageFault → String
  | unexpectedArgument a => s!"unexpected argument '{Text.Terminal.printed a}' found"
  | missingValue f => s!"a value is required for '{f.label}' but none was supplied"
  | repeated f => s!"the argument '{f.label}' cannot be used multiple times"
  | unexpectedValue v s =>
    s!"unexpected value '{Text.Terminal.printed v}' for '{s.label}' found; " ++
      "no more were expected"

/-- The values that the flags were given. -/
structure Given where
  config : Option String
  listen : Option String
  deriving DecidableEq, Repr

namespace Given

def none : Given := ⟨.none, .none⟩

def get (g : Given) : Flag → Option String
  | .config => g.config
  | .listen => g.listen

def set (g : Given) (f : Flag) (value : String) : Given :=
  match f with
  | .config => { g with config := some value }
  | .listen => { g with listen := some value }

/-- A flag needs a value and may come once; a file name may not be empty. -/
def take (g : Given) (f : Flag) : Option String → Except UsageFault Given
  | .none => .error (.missingValue f)
  | some value =>
    if (g.get f).isSome then .error (.repeated f)
    else if f = .config ∧ value.isEmpty then .error (.missingValue f)
    else .ok (g.set f value)

end Given

/-- What a command line asks for. -/
inductive Invocation where
  | help
  | version
  | run (given : Given)
  deriving DecidableEq, Repr

def Switch.invocation : Switch → Invocation
  | help => .help
  | version => .version

/-- One argument by its form. -/
inductive Argument where
  | separator
  | long (name : String) (value : Option String)
  | short (first : Char)
  | plain
  deriving DecidableEq, Repr

def Argument.ofString (s : String) : Argument :=
  match s.toList with
  | ['-', '-'] => separator
  | '-' :: '-' :: rest =>
    let name := String.ofList (rest.takeWhile (· ≠ '='))
    match rest.dropWhile (· ≠ '=') with
    | _ :: value => long name (some (String.ofList value))
    | [] => long name none
  | '-' :: c :: _ => short c
  | _ => plain

/-- The flags taken so far, and one whose value has not been taken yet. -/
structure Progress where
  given : Given
  pending : Option (Flag × Option String)
  deriving DecidableEq, Repr

namespace Progress

def start : Progress := ⟨.none, none⟩

def settle (p : Progress) : Except UsageFault Given :=
  match p.pending with
  | none => .ok p.given
  | some (f, value) => p.given.take f value

def switch (p : Progress) (s : Switch) : Except UsageFault Invocation :=
  p.settle.map fun _ => s.invocation

/-- After a separator no argument is expected. -/
def afterSeparator (p : Progress) : List String → Except UsageFault Invocation
  | [] => p.settle.map .run
  | argument :: _ => .error (.unexpectedArgument argument)

def flag (p : Progress) (f : Flag) (value : Option String) : Except UsageFault Progress := do
  let given ← p.settle
  match value with
  | some _ => return ⟨← given.take f value, none⟩
  | none => return ⟨given, some (f, none)⟩

def read (p : Progress) : List String → Except UsageFault Invocation
  | [] => p.settle.map .run
  | argument :: rest =>
    match Argument.ofString argument with
    | .separator => p.afterSeparator rest
    | .long "config" value => do (← p.flag .config value).read rest
    | .long "listen" value => do (← p.flag .listen value).read rest
    | .long "help" (some value) => .error (.unexpectedValue value .help)
    | .long "version" (some value) => .error (.unexpectedValue value .version)
    | .long "help" none | .short 'h' => p.switch .help
    | .long "version" none | .short 'V' => p.switch .version
    | .long name _ => .error (.unexpectedArgument ("--" ++ name))
    | .short c => .error (.unexpectedArgument (String.ofList ['-', c]))
    | .plain =>
      match p.pending with
      | some (f, none) => read ⟨p.given, some (f, some argument)⟩ rest
      | _ => .error (.unexpectedArgument argument)

end Progress

def Invocation.ofArguments (arguments : List String) : Except UsageFault Invocation :=
  Progress.start.read arguments

end PhraseArithmetic.Launch
