/-
# Disks

A disk is a tree of files below the root and one below the working directory, with a table of the
files that are held: by one writer, or by readers.  Holding a file is a matter between those who
ask for it, and whoever just reads or stores a file does not.

`Disk.locate` follows a path to what is there.  It fails where the path leads through something
that is not a directory.
-/
import TraceRecorder.Fault
import TraceRecorder.Storage.Path
import TraceRecorder.Storage.Tree

namespace TraceRecorder

/-- What a path leads to. -/
inductive Place where
  | directory (l : Location)
  | file (l : Location) (content : Tape)
  | device (l : Location)
  /-- Nothing, in a directory that is there. -/
  | vacant (l : Location)
  deriving DecidableEq, Repr

/-- A disk. -/
structure Disk where
  /-- What is below the root. -/
  root : Node := .empty
  /-- What is below the working directory.  The directories above it are known only as that. -/
  working : Node := .empty
  /-- The files that are held by a writer. -/
  writers : List Location := []
  /-- The files that are held by readers, once for each reader. -/
  readers : List Location := []

abbrev DiskAction := Fallible Fault Disk

namespace Disk

/-! ## 1. The tree -/

def tree (d : Disk) (l : Location) : Node := if l.fromRoot then d.root else d.working

def node? (d : Disk) (l : Location) : Option Node :=
  if l.isOrigin then some (((d.tree l).find? l.names).getD .empty) else (d.tree l).find? l.names

def setNode (d : Disk) (l : Location) (n : Node) : Disk :=
  let tree := (d.tree l).put n l.names
  if l.fromRoot then { d with root := tree } else { d with working := tree }

theorem node?_setNode_self (d : Disk) (l : Location) (n : Node) :
    (d.setNode l n).node? l = some n := by
  have h : (d.setNode l n).tree l = (d.tree l).put n l.names := by
    by_cases hl : l.fromRoot <;> simp [setNode, tree, hl]
  simp [node?, h, Node.find?_put_self]

def isHeld (d : Disk) (l : Location) : Bool := d.writers.contains l || d.readers.contains l

def content (d : Disk) (l : Location) : Tape := ((d.node? l).map Node.content).getD .empty

/-- Where some parts of a path lead from a directory. -/
def walk (d : Disk) (l : Location) : List String → Except FileFlaw Place
  | [] => .ok (.directory l)
  | part :: rest =>
    if Path.isHere part then walk d l rest
    else if part == ".." then walk d l.parent rest
    else if !Path.isName part then .error .unusable
    else
      let next := l.child part
      match d.node? next, rest with
      | some (.directory _), rest => walk d next rest
      | some (.file content), [] => .ok (.file next content)
      | some .device, [] => .ok (.device next)
      | some _, _ :: _ => .error .unusable
      | none, [] => .ok (.vacant next)
      | none, _ :: _ => .error .missing

/-- **What a path leads to.** -/
def locate (d : Disk) (path : String) : Except FileFlaw Place :=
  if path == "" then .error .missing
  else if !Path.isUsable path then .error .unusable
  else d.walk (Location.origin path) (Path.parts path)

/-- The disk with the directories that some parts of a path need, as far as they can be made,
and whether they could.  A directory is not made under a name that only a dot follows. -/
def makeDirectories (d : Disk) (l : Location) : List String → Bool × Disk
  | [] => (true, d)
  | part :: rest =>
    if Path.isHere part then makeDirectories d l rest
    else if part == ".." then makeDirectories d l.parent rest
    else if !Path.isName part then (false, d)
    else
      let next := l.child part
      match d.node? next with
      | some (.directory _) => makeDirectories d next rest
      | some _ => (false, d)
      | none =>
        if Path.isDotted rest then (false, d)
        else makeDirectories (d.setNode next .empty) next rest

/-! ## 2. Operations -/

/-- A fault of the file at a path. -/
def failAt {α : Type} (path : String) (flaw : FileFlaw) : DiskAction α :=
  throw (.inFile path (.file flaw))

/-- What a path leads to, for an operation that needs to know. -/
def find (path : String) : DiskAction Place := do
  let d ← get
  match d.locate path with
  | .ok place => pure place
  | .error flaw => failAt path flaw

/-- **The directory of a path is there from now on**, and so are those on the way to it. -/
def createDirectory (path : String) : DiskAction Unit := do
  if !Path.isUsable path then failAt path .noDirectory
  else
    let d ← get
    let (made, d) := d.makeDirectories (Location.origin path) (Path.parts path)
    set d
    if made then pure () else failAt path .noDirectory

/-- The content of a file. -/
def read (path : String) : DiskAction Tape := do
  match ← find path with
  | .file _ content => pure content
  | .device _ => pure .empty
  | .directory _ => failAt path .unusable
  | .vacant _ => failAt path .missing

/-- The text of a file, which must be UTF-8. -/
def readText (path : String) : DiskAction String := do
  let content ← read path
  match Bytes.text? content.bytes with
  | some text => pure text
  | none => failAt path .unusable

/-- A file gets some content, whatever it had, and is made if it was not there. -/
def store (path : String) (content : Tape) : DiskAction Unit := do
  match ← find path with
  | .file l _ | .vacant l => modify fun d => d.setNode l (.file content)
  | .device _ => pure ()
  | .directory _ => failAt path .unusable

end Disk

end TraceRecorder
