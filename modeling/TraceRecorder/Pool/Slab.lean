/-
# Buffers in memory

A slab is the memory of a buffer: a fixed number of bytes, and two cursors into them.  Up to the
first cursor stand the committed bytes, and from there up to the second one the pending bytes.  What
lies behind is never cleared, and is what earlier leases left there.

Lengths and cursors are 64-bit words, and their arithmetic wraps around.  Whoever reaches for bytes
outside the memory gets nothing: there is no answer to such a call.
-/
import TraceRecorder.Pool.Buffer

namespace TraceRecorder

/-- A buffer in memory. -/
structure Slab where
  id : BufferId
  /-- All bytes, also those that nobody wrote in this lease. -/
  memory : Tape
  /-- Where the committed bytes end. -/
  committed : UInt64
  /-- Where the pending bytes end. -/
  position : UInt64
  epoch : Epoch
  owner : Owner
  kind : BufferKind
  retired : Bool
  deriving DecidableEq, Repr

namespace Slab

/-! ## 1. Memory and cursors -/

def allocate (id : BufferId) (capacity : Nat) (kind : BufferKind) : Slab :=
  ⟨id, .ofBytes (List.replicate capacity 0), 0, 0, .zero, .global, kind, false⟩

def capacity (s : Slab) : UInt64 := UInt64.ofNat s.memory.length

def pendingLength (s : Slab) : UInt64 := s.position - s.committed

def free (s : Slab) : UInt64 := s.capacity - s.position

/-- **The bytes from one place up to another**, if there are such places. -/
def slice? (s : Slab) (start stop : UInt64) : Option Tape :=
  if start ≤ stop ∧ stop ≤ s.capacity then
    some ((s.memory.take stop.toNat).drop start.toNat)
  else none

/-- **The memory with some bytes written from a place on**, if there is so much of it. -/
def write? (s : Slab) (start : UInt64) (bytes : Bytes) : Option Slab :=
  let stop := start + UInt64.ofNat bytes.length
  if start ≤ stop ∧ stop ≤ s.capacity then
    some { s with memory := s.memory.overwrite start.toNat bytes }
  else none

def committed? (s : Slab) : Option Tape := s.slice? 0 s.committed

/-- The bytes of the entry that is being written. -/
def pending? (s : Slab) : Option Tape := s.slice? s.committed s.position

/-! ## 2. Operations -/

/-- **The slab made ready for a new lease.**  Only the cursors go back. -/
def lease (s : Slab) (epoch : Epoch) (owner : Owner) : Slab :=
  { s with committed := 0, position := 0, epoch := epoch, owner := owner, retired := false }

/-- The slab waits to be drained from now on. -/
def retire (s : Slab) : Slab := { s with retired := true }

/-- **More pending bytes**, if they fit; says whether they do. -/
def append? (s : Slab) (bytes : Bytes) : Option (Bool × Slab) :=
  if s.free.toNat < bytes.length then some (false, s)
  else (s.write? s.position bytes).map fun written =>
    (true, { written with position := s.position + UInt64.ofNat bytes.length })

/-- Written bytes are replaced, such as a header that was reserved. -/
def patch? (s : Slab) (start : UInt64) (bytes : Bytes) : Option Slab := s.write? start bytes

/-- The first `count` pending bytes are committed, all of them if there are not so many. -/
def commit (s : Slab) (count : UInt64) : Slab :=
  { s with committed := s.committed + if count ≤ s.pendingLength then count else s.pendingLength }

def commitAll (s : Slab) : Slab := { s with committed := s.position }

def rewind (s : Slab) : Slab := { s with position := s.committed }

/-- **The pending bytes of another slab moved behind this one's**, if they fit; says whether they
do. -/
def carry? (s other : Slab) : Option (Bool × Slab × Slab) := do
  let pending ← other.pending?
  let (done, s) ← s.append? pending.bytes
  return (done, s, if done then other.rewind else other)

/-- **The buffer that a slab is.** -/
def buffer (s : Slab) : Buffer where
  id := s.id
  capacity := s.memory.length
  committed := s.memory.take s.committed.toNat
  pending := (s.memory.take s.position.toNat).drop s.committed.toNat
  epoch := s.epoch
  owner := s.owner
  kind := s.kind
  retired := s.retired

end Slab

end TraceRecorder
