import PhraseArithmetic.Launch.Run

/-!
# The command

The command goes as far as a run does: it ends, or it would bind its address and serve. What comes
then is left to the host and has no definition here: looking up a host name, binding a well-formed
address with the log line or the report that follows, and the signal that ends serving with what is
logged at that. Requests are answered one after the other and each at once, so none overlaps another
and none runs into the timeout of the settings.

Of messages, these parts are left out: the words of the JSON and TOML decoders, the lines of a usage
error after its first, and the time of a log line. The log has the events of the program itself and
not the transport's trace of a request, and its filter is that of the settings and not one from the
environment.
-/
namespace PhraseArithmetic.Launch

/-- An error number, which may come with either sign. -/
def magnitude (code : UInt32) : Nat := (Int32.ofNat code.toNat).toInt.natAbs

/-- The system's number for an error of reading a file. -/
def errorCode : IO.Error → Nat
  | .noFileOrDirectory _ code _ | .permissionDenied _ code _ | .inappropriateType _ code _
  | .invalidArgument _ code _ => magnitude code
  | _ => 0

def readFile (path : String) : IO (Except ReadFault ByteArray) := do
  try
    return .ok (← IO.FS.readBinFile path)
  catch e => return .error ((ReadFault.ofCode? (errorCode e)).getD .absent)

/-- Ends with the exit code of the run; listening is left to the host. -/
def execute (arguments : List String) : IO UInt32 := do
  let file ← match neededFile? arguments with
    | some path => readFile path
    | none => pure (.error .absent)
  let (code, output, errors) := match run arguments fun _ => file with
    | .exited code output errors => (code, output, errors)
    | .serving _ output errors => (0, output, errors)
  output.forM fun line => IO.println line
  errors.forM fun line => IO.eprintln line
  return UInt32.ofNat code

end PhraseArithmetic.Launch

def main (arguments : List String) : IO UInt32 := PhraseArithmetic.Launch.execute arguments
