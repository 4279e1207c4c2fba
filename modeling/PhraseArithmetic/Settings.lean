import PhraseArithmetic.Files
import PhraseArithmetic.Toml.Document

/-!
# Settings

Settings come from a file or are the default ones. A file gives all of them or none: a key that it
leaves out has its default, and a file that cannot be used leaves every default in place.
-/
namespace PhraseArithmetic

structure ServerSettings where
  listenAddr : String
  requestTimeoutSecs : Nat
  maxBodyBytes : Nat
  deriving DecidableEq, Repr

structure LoggingSettings where
  level : String
  deriving DecidableEq, Repr

structure Settings where
  server : ServerSettings
  logging : LoggingSettings
  deriving DecidableEq, Repr

def ServerSettings.default : ServerSettings := ⟨"0.0.0.0:8080", 10, 64 * 1024⟩

def LoggingSettings.default : LoggingSettings := ⟨"info"⟩

def ServerSettings.requestTimeoutMillis (s : ServerSettings) : Nat := s.requestTimeoutSecs * 1000

/-- Why a settings file was not used. -/
inductive LoadFault where
  | unreadable (fault : ReadFault)
  | notText
  | unacceptable
  deriving DecidableEq, Repr

namespace LoadFault

/-- What was being done with the file. -/
def activity (path : String) : LoadFault → String
  | unreadable _ | notText => s!"reading {path}"
  | unacceptable => s!"parsing {path}"

/-- The activity and, where the file could not be read, the cause. The decoder's own words about a
file that is not acceptable, which follow the activity, are left out. -/
def message (path : String) (f : LoadFault) : String :=
  match f with
  | unreadable fault => s!"{f.activity path}: {fault.message}"
  | notText => s!"{f.activity path}: stream did not contain valid UTF-8"
  | unacceptable => f.activity path

end LoadFault

namespace Settings
open Toml (Entries Value)

def default : Settings := ⟨.default, .default⟩

/-- The file that is used when no other is named. -/
def standardPath : String := "/etc/wordcalc/config.toml"

def text? : Value → Option String
  | .text s => some s
  | _ => none

def count? : Value → Option Nat
  | .integer n => if 0 ≤ n then some n.toNat else none
  | _ => none

/-- The value of a key, or its default where the key is absent. -/
def field {α : Type} (es : Entries) (key : String) (read : Value → Option α) (default : α) :
    Option α :=
  match es.lookup key with
  | some v => read v
  | none => some default

/-- A group of settings is a table, or an array of values in the order of its keys. A moment is a
group too, one that sets nothing. -/
def group? (keys : List String) : Value → Option Entries
  | .table _ es => some es
  | .moment => some []
  | .array vs => some (keys.zip vs)
  | .tables ts => some (keys.zip (ts.map (.table .header)))
  | _ => none

def server? (v : Value) : Option ServerSettings := do
  let es ← group? ["listen_addr", "request_timeout_secs", "max_body_bytes"] v
  let d := ServerSettings.default
  some ⟨← field es "listen_addr" text? d.listenAddr,
    ← field es "request_timeout_secs" count? d.requestTimeoutSecs,
    ← field es "max_body_bytes" count? d.maxBodyBytes⟩

def logging? (v : Value) : Option LoggingSettings := do
  let es ← group? ["level"] v
  some ⟨← field es "level" text? LoggingSettings.default.level⟩

def ofEntries? (es : Entries) : Option Settings := do
  some ⟨← field es "server" server? .default, ← field es "logging" logging? .default⟩

def parse? (text : String) : Option Settings := (Toml.document? text.toList).bind ofEntries?

/-- Reads the settings from a file's octets, if they could be read. -/
def read (file : Except ReadFault ByteArray) : Except LoadFault Settings :=
  match file with
  | .error fault => .error (.unreadable fault)
  | .ok octets =>
    match String.fromUTF8? octets with
    | none => .error .notText
    | some text =>
      match parse? text with
      | none => .error .unacceptable
      | some settings => .ok settings

/-- The settings to use, and the reason where they are the default ones. -/
def load (file : Except ReadFault ByteArray) : Settings × Option LoadFault :=
  match read file with
  | .ok settings => (settings, none)
  | .error fault => (default, some fault)

end Settings
end PhraseArithmetic
