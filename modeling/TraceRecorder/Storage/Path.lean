/-
# Paths

A path is a text as a user types it: names between slashes, from the root if it begins with a
slash and from the working directory otherwise.  An empty name and a single dot stand for the
directory that has been reached, two dots for the one above it.

`Location` is where a path leads on a disk, with these taken out.
-/
namespace TraceRecorder

namespace Path

/-- The parts of a path between its slashes, empty ones and dots included. -/
def parts (path : String) : List String := path.splitToList (· == '/')

def isAbsolute (path : String) : Bool := path.toList.head? == some '/'

/-- The part does not lead anywhere: the directory that has been reached. -/
def isHere (part : String) : Bool := part == "" || part == "."

/-- A name that a file can have: not too long. -/
def isName (part : String) : Bool := part.utf8ByteSize ≤ 255

/-- **A path that can be followed at all**: shorter than 4096 bytes, and without the character
that ends texts. -/
def isUsable (path : String) : Bool := path.utf8ByteSize < 4096 && !path.toList.contains '\x00'

/-- The parts lead nowhere, and one of them is a dot. -/
def isDotted (parts : List String) : Bool := parts.all isHere && parts.contains "."

/-- **The path of a name in a directory.**  A name that counts from the root is a path itself. -/
def join (directory name : String) : String :=
  if isAbsolute name || directory == "" then name
  else if directory.toList.getLast? == some '/' then directory ++ name
  else directory ++ "/" ++ name

/-- Two paths are the same but for parts that do not lead anywhere. -/
def same (a b : String) : Bool :=
  isAbsolute a == isAbsolute b &&
    (parts a).filter (fun p => !isHere p) == (parts b).filter (fun p => !isHere p)

end Path

/-- Where something is on a disk: the names of the directories on the way, then its own. -/
structure Location where
  /-- Counted from the root, and otherwise from the working directory. -/
  fromRoot : Bool
  names : List String
  deriving DecidableEq, Repr

namespace Location

def origin (path : String) : Location := ⟨Path.isAbsolute path, []⟩

def child (l : Location) (name : String) : Location := ⟨l.fromRoot, l.names ++ [name]⟩

/-- The location is certain to be a directory: where paths begin, or above it. -/
def isOrigin (l : Location) : Bool := l.names.all (· == "..")

/-- The directory above.  Above the root is the root, and the directories above the working
directory are known only as that. -/
def parent (l : Location) : Location :=
  if l.isOrigin then (if l.fromRoot then l else l.child "..")
  else ⟨l.fromRoot, l.names.dropLast⟩

def path (l : Location) : String :=
  (if l.fromRoot then "/" else "") ++ "/".intercalate l.names

end Location

end TraceRecorder
