/-
# Chunk files in use

Writers create chunk files, append to them and close them; readers open chunks that are finished
and let go of them again.  `ChunkHandle` is what one of them has in hand, and `ChunkHolders` is a
disk with all that are in hand.  One call is made after the other, by any number of holders and on
any paths; a call that is refused changes nothing.

A handle keeps its number when it is closed, and nothing can be asked of it then.
-/
import TraceRecorder.Storage.ChunkFile

namespace TraceRecorder

/-- What a holder has in hand. -/
inductive ChunkHandle where
  /-- A chunk file, and all that was appended to it. -/
  | writer (file : ChunkFile) (appended : Bytes)
  | reader (chunk : FinishedChunk)
  | closed
  deriving DecidableEq, Repr

/-- What can be asked of a handle. -/
inductive ChunkRequest where
  | append (more : Tape)
  | flush
  | close
  deriving DecidableEq, Repr

/-- A call of a holder. -/
inductive ChunkCall where
  | create (path : String)
  | openAt (path : String)
  | request (handle : Nat) (request : ChunkRequest)
  deriving DecidableEq, Repr

/-- What a call answers. -/
inductive ChunkAnswer where
  | done
  /-- The number of a new handle. -/
  | handle (index : Nat)
  | refused (fault : Fault)
  /-- There is no such handle, or it is of another kind. -/
  | misplaced
  deriving DecidableEq, Repr

/-- **What is asked of a handle**, if it can be asked of it: the handle afterwards. -/
def ChunkHandle.serve? : ChunkHandle → ChunkRequest → Option (DiskAction ChunkHandle)
  | .writer f appended, .append more =>
    some do return .writer (← f.append more) (appended ++ more.bytes)
  | .writer f appended, .flush => some do return .writer (← f.flush) appended
  | .writer f _, .close => some do
    f.close
    return .closed
  | .reader c, .close => some do
    c.close
    return .closed
  | _, _ => none

/-- **A disk in use**, with all that holders have in hand. -/
structure ChunkHolders where
  disk : Disk
  handles : List ChunkHandle := []

namespace ChunkHolders

/-- A disk of which nobody holds anything yet. -/
def start (root working : Node) : ChunkHolders := { disk := { root := root, working := working } }

/-- One more handle. -/
def grant (s : ChunkHolders) (x : DiskAction ChunkHandle) : ChunkAnswer × ChunkHolders :=
  match Fallible.runOn x s.disk with
  | (.ok handle, d) => (.handle s.handles.length, ⟨d, s.handles ++ [handle]⟩)
  | (.error fault, d) => (.refused fault, ⟨d, s.handles⟩)

/-- One call. -/
def call (s : ChunkHolders) : ChunkCall → ChunkAnswer × ChunkHolders
  | .create path => s.grant do return .writer (← ChunkFile.create path) []
  | .openAt path => s.grant do return .reader (← FinishedChunk.openAt path)
  | .request index request =>
    match s.handles[index]?.bind (·.serve? request) with
    | none => (.misplaced, s)
    | some x =>
      match Fallible.runOn x s.disk with
      | (.ok handle, d) => (.done, ⟨d, s.handles.set index handle⟩)
      | (.error fault, d) => (.refused fault, ⟨d, s.handles⟩)

/-- **The disk after some calls.** -/
def callAll (s : ChunkHolders) (calls : List ChunkCall) : ChunkHolders :=
  calls.foldl (fun s c => (s.call c).2) s

end ChunkHolders

end TraceRecorder
