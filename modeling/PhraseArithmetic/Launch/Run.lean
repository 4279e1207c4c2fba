import PhraseArithmetic.Launch.Address
import PhraseArithmetic.Launch.Arguments
import PhraseArithmetic.Launch.Filter
import PhraseArithmetic.Server
import PhraseArithmetic.Settings

/-!
# Running the daemon

A run ends at once for a switch or a usage fault. Otherwise the settings are loaded, the listen
address is the flag's, else the file's, else the default one, and the daemon serves unless that
address has no proper form.
-/
namespace PhraseArithmetic.Launch

def programName : String := "wordcalcd"

def helpText : List String :=
  ["Word expression calculator daemon",
   "",
   s!"Usage: {programName} [OPTIONS]",
   "",
   "Options:",
   s!"      {Flag.config.label}  Config file (defaults to {Settings.standardPath})",
   s!"      {Flag.listen.label}  Override the listen address, e.g. 127.0.0.1:8080",
   "  -h, --help             Print help",
   "  -V, --version          Print version"]

/-- What a run does: it exits with a code and lines on both outputs, or it goes on to serve. -/
inductive Outcome where
  | exited (code : Nat) (output errors : List String)
  | serving (settings : Settings) (output errors : List String)
  deriving DecidableEq, Repr

/-- A carriage return at the end of a line is no part of it. -/
def dropReturn (line : List Char) : List Char :=
  if line.getLast? = some '\r' then line.dropLast else line

def lines (text : String) : List String :=
  (Text.parts '\n' text.toList).map fun line => String.ofList (dropReturn line)

def events (path : String) (fault : Option LoadFault) : List Log.Event :=
  ⟨.info, s!"{programName} v{version} starting"⟩ ::
    (fault.map fun f =>
      ⟨.warn, s!"Config not loaded, using defaults: {f.message path}"⟩).toList

/-- What is written to the log under a filter. -/
def logged (filter : Filter) (events : List Log.Event) : List String :=
  (events.filter fun e => filter.passes programName e.level).flatMap fun e =>
    lines (e.line programName)

def complaints (filter : Filter) : List String :=
  filter.ignored.flatMap fun (part, fault) =>
    lines s!"ignoring `{String.ofList part}`: {fault.message}"

def bindReport (address : String) (fault : AddressFault) : List String :=
  lines s!"Error: {AddressFault.activity address}\n\nCaused by:\n    {fault.message}"

def settingsPath (given : Given) : String := given.config.getD Settings.standardPath

/-- The settings in force: the loaded ones, with the listen address of the command line. -/
def effective (given : Given) (loaded : Settings) : Settings :=
  { loaded with
    server := { loaded.server with listenAddr := given.listen.getD loaded.server.listenAddr } }

/-- Starts the daemon with the octets of its settings file, if they could be read. -/
def start (given : Given) (file : Except ReadFault ByteArray) : Outcome :=
  let (loaded, fault) := Settings.load file
  let settings := effective given loaded
  let filter := Filter.parse settings.logging.level
  let output := logged filter (events (settingsPath given) fault)
  match AddressFault.of? settings.server.listenAddr with
  | some f =>
    .exited 1 output (complaints filter ++ bindReport settings.server.listenAddr f)
  | none => .serving settings output (complaints filter)

/-- Runs a command line; `files` gives the octets of the file at a path. -/
def run (arguments : List String) (files : String → Except ReadFault ByteArray) : Outcome :=
  match Invocation.ofArguments arguments with
  | .error fault => .exited 2 [] ((lines s!"error: {fault.message}").take 1)
  | .ok .help => .exited 0 helpText []
  | .ok .version => .exited 0 [s!"{programName} {version}"] []
  | .ok (.run given) => start given (files (settingsPath given))

/-- The settings file that a command line leads to. -/
def neededFile? (arguments : List String) : Option String :=
  match Invocation.ofArguments arguments with
  | .ok (.run given) => some (settingsPath given)
  | _ => none

end PhraseArithmetic.Launch
