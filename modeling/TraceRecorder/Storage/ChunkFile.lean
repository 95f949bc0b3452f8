/-
# Chunk files

A recorder that writes a chunk holds its file alone, and whoever reads a finished chunk shares it
with other readers.  Both are refused while the other has the file, and a refusal changes
nothing: the file is emptied only once it is held.

What is appended waits in memory until there is a block of it, and reaches the file in order.
`flush` and `close` leave nothing waiting.
-/
import TraceRecorder.Storage.Disk

namespace TraceRecorder

/-! ## 1. Writing -/

/-- A chunk file that is held by its writer. -/
structure ChunkFile where
  path : String
  location : Location
  /-- Where the next bytes go in the file. -/
  offset : Nat := 0
  /-- Bytes that have not reached the file. -/
  waiting : Tape := .empty
  /-- How many bytes were appended. -/
  committed : Nat := 0
  deriving DecidableEq, Repr

namespace ChunkFile

def blockLength : Nat := 8192

/-- Bytes are put into the file behind those that reached it before. -/
def put (f : ChunkFile) (more : Tape) : DiskAction ChunkFile := do
  if more.length = 0 then pure f
  else
    modify fun d => d.setNode f.location (.file ((d.content f.location).splice f.offset more))
    pure { f with offset := f.offset + more.length }

/-- **A new chunk at a path.**  A file that is there is emptied, unless someone holds it; a device
cannot be emptied. -/
def create (path : String) : DiskAction ChunkFile := do
  match ← (Disk.find path).attempt with
  | .error _ | .ok (.directory _) => Disk.failAt path .unusable
  | .ok (.vacant l) => hold l
  | .ok (.device l) =>
    let d ← get
    Disk.failAt path (if d.isHeld l then .lockedByWriter else .unusable)
  | .ok (.file l _) =>
    let d ← get
    if d.isHeld l then Disk.failAt path .lockedByWriter else hold l
where
  /-- The file is empty, and held. -/
  hold (l : Location) : DiskAction ChunkFile := do
    modify fun d => { d.setNode l (.file .empty) with writers := l :: d.writers }
    pure { path := path, location := l }

/-- **All that was appended is in the file.** -/
def flush (f : ChunkFile) : DiskAction ChunkFile := do
  let f ← f.put f.waiting
  pure { f with waiting := .empty }

/-- **Bytes are added behind all that were appended before.**  What does not fit the memory
besides the bytes that wait sends those on first, and whole blocks do not wait at all. -/
def append (f : ChunkFile) (more : Tape) : DiskAction ChunkFile := do
  let f ← if f.waiting.length + more.length ≤ blockLength then pure f else f.flush
  let f := { f with committed := f.committed + more.length }
  if more.length < blockLength then pure { f with waiting := f.waiting.join more }
  else f.put more

/-- **The chunk is finished**, and its file held no more. -/
def close (f : ChunkFile) : DiskAction Unit := do
  let _ ← f.flush
  modify fun d => { d with writers := d.writers.erase f.location }

end ChunkFile

/-! ## 2. Reading -/

/-- A finished chunk that is held by a reader. -/
structure FinishedChunk where
  path : String
  location : Location
  content : Tape
  deriving DecidableEq, Repr

namespace FinishedChunk

def bytes (c : FinishedChunk) : Bytes := c.content.bytes

/-- **The chunk at a path**, unless it is being written. -/
def openAt (path : String) : DiskAction FinishedChunk := do
  match ← Disk.find path with
  | .directory _ => Disk.failAt path .unusable
  | .vacant _ => Disk.failAt path .missing
  | .device l => hold l .empty
  | .file l content =>
    let d ← get
    if d.writers.contains l then Disk.failAt path .stillWritten else hold l content
where
  /-- The chunk is held. -/
  hold (l : Location) (content : Tape) : DiskAction FinishedChunk := do
    modify fun d => { d with readers := l :: d.readers }
    pure ⟨path, l, content⟩

def close (c : FinishedChunk) : DiskAction Unit :=
  modify fun d => { d with readers := d.readers.erase c.location }

end FinishedChunk

end TraceRecorder
