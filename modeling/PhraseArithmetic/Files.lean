import PhraseArithmetic.Text.Parts

/-!
# Reading files

A file tree is a root directory and a working directory in it. Reading follows the components of a
path from one of the two; every component but the last has to lead to a directory, and so has the
last one where a separator follows it.
-/
namespace PhraseArithmetic

/-- Why a file could not be read. -/
inductive ReadFault where
  | absent
  | denied
  | notDirectory
  | directory
  | nameTooLong
  deriving DecidableEq, Repr

namespace ReadFault

def all : List ReadFault := [absent, denied, notDirectory, directory, nameTooLong]

/-- The number that the system has for a fault. -/
def code : ReadFault → Nat
  | absent => 2
  | denied => 13
  | notDirectory => 20
  | directory => 21
  | nameTooLong => 36

def reason : ReadFault → String
  | absent => "No such file or directory"
  | denied => "Permission denied"
  | notDirectory => "Not a directory"
  | directory => "Is a directory"
  | nameTooLong => "File name too long"

def message (f : ReadFault) : String := s!"{f.reason} (os error {f.code})"

def ofCode? (code : Nat) : Option ReadFault := all.find? fun f => f.code = code

end ReadFault

/-- A file with its octets, or a directory with its entries. -/
inductive Node where
  | file (octets : ByteArray)
  | directory (entries : List (String × Node))

namespace Node

/-- The longest name of an entry, in octets. -/
def nameLimit : Nat := 255

/-- Empty components, and single dots, stay where they are. -/
def stays (component : String) : Bool := component = "" || component = "."

def entry (n : Node) (name : String) : Except ReadFault Node :=
  match n with
  | file _ => .error .notDirectory
  | directory entries =>
    if nameLimit < name.utf8ByteSize then .error .nameTooLong
    else match entries.lookup name with
      | some n => .ok n
      | none => .error .absent

/-- Follows components from a node below the given directories, the nearest of them first. The
root directory is its own parent. -/
def follow (above : List Node) (n : Node) : List String → Except ReadFault Node
  | [] => .ok n
  | component :: rest =>
    match n with
    | file _ => .error .notDirectory
    | directory _ =>
      if stays component then follow above n rest
      else if component = ".." then
        match above with
        | [] => follow [] n rest
        | parent :: above => follow above parent rest
      else do
        follow (n :: above) (← n.entry component) rest

def read : Node → Except ReadFault ByteArray
  | file octets => .ok octets
  | directory _ => .error .directory

end Node

structure FileTree where
  root : Node
  /-- The components of the path from the root to the working directory. -/
  working : List String

namespace FileTree

/-- The longest path, in octets. -/
def pathLimit : Nat := 4095

def components (path : String) : List String := (Text.parts '/' path.toList).map String.ofList

/-- A path that begins with a separator is followed from the root. -/
def read (t : FileTree) (path : String) : Except ReadFault ByteArray :=
  if path.isEmpty then .error .absent
  else if pathLimit < path.utf8ByteSize then .error .nameTooLong
  else do
    let start := if path.startsWith "/" then [] else t.working
    (← t.root.follow [] (start ++ components path)).read

end FileTree
end PhraseArithmetic
