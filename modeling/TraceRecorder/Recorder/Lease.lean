/-
# Leasing buffers

Writers lease buffers from the pools and give them back.  A buffer comes back in one of three
ways: it stays bound to its carrier thread while there is room for another small entry, it goes
to the full list when it holds committed bytes, or it is free again when it holds none.

What is done with a binding is one step here.  `Bindings` has it in the two critical sections that
it is made of, and says what may come in between.

A lease is replaced in two ways.  `renew` moves the pending bytes into a larger buffer; `flush`
commits them and goes on in a fresh one.  Both keep the epoch tag.
-/
import TraceRecorder.Recorder.State

namespace TraceRecorder

namespace Recorder

/-- A buffer with less room than this is not kept by its thread: room for a header and for the
header of one segment. -/
def keepBoundRoom : Nat := Header.length + Segment.headerLength

/-- The epoch that a lease is tagged with. -/
def leaseEpoch (duringDrain : Bool) : Action Epoch := do
  let r ← get
  if duringDrain then
    match r.epoch.draining with
    | some epoch => pure epoch
    | none => throw (.recorder .leaseOutsideDrain)
  else pure r.epoch.current

/-- The counters after a lease. -/
def countLease (how : Acquired) (s : Stats) : Stats :=
  match how with
  | .reused => { s with buffersReused := s.buffersReused + 1 }
  | .allocated false => { s with buffersAllocated := s.buffersAllocated + 1 }
  | .allocated true =>
    { s with
      buffersAllocated := s.buffersAllocated + 1
      buffersDeallocated := s.buffersDeallocated + 1 }

/-- Whom a buffer of a kind is leased to. -/
def ownerFor (kind : BufferKind) (thread : ThreadId) : Owner :=
  match kind with
  | .global => .global
  | _ => .thread thread

/-- **A buffer fresh from its pool**, with room for `size` bytes. -/
def lease (kind : BufferKind) (size : Nat) (epoch : Epoch) (thread : ThreadId) :
    Action Buffer := do
  let r ← get
  let (b, how) ← onSpace kind
    (Space.acquire r.host.memory.grants size epoch (ownerFor kind thread))
  tally (countLease how)
  pure b

/-- Leased buffers come back to the pool of a kind. -/
def reclaim (kind : BufferKind) (buffers : List Buffer) : Action Unit := do
  let givenUp ← onSpace kind (Space.reclaim buffers)
  tally fun s => { s with buffersDeallocated := s.buffersDeallocated + givenUp }

def registerFull (b : Buffer) : Action Unit := onSpace b.kind (Space.registerFull b)

/-- **A lease ends**: a buffer without committed bytes is free again, any other one is full. -/
def handOff (b : Buffer) : Action Unit :=
  if b.isEmpty then reclaim b.kind [b] else registerFull b

/-- The buffer that is bound to a carrier thread is taken out of the binding. -/
def takeBinding (thread : ThreadId) : Action (Option Buffer) := do
  let r ← get
  set { r with threadLocal := r.threadLocal.bind thread none }
  pure (r.threadLocal.bound? thread)

/-- **A buffer with room for `size` bytes.**  A carrier thread gets its bound buffer back if that
has the right epoch and the room; otherwise the lease of the bound buffer ends first. -/
def acquire (thread : ThreadId) (kind : BufferKind) (duringDrain : Bool) (size : Nat) :
    Action Buffer := do
  let epoch ← leaseEpoch duringDrain
  if kind = .threadLocal then
    match ← takeBinding thread with
    | none => lease kind size epoch thread
    | some b =>
      if b.epoch = epoch ∧ size ≤ b.free then pure b
      else
        handOff b
        lease kind size epoch thread
  else lease kind size epoch thread

/-- **The pending bytes of a buffer move to a larger one** with room for `size` bytes more.  If
there is none the pending bytes are lost.  The old lease ends in both cases, unless the thread ends
for want of memory: then nobody has the old buffer any more.  What is needed is a 64-bit word, and a
sum beyond that starts again at zero. -/
def renew (old : Buffer) (thread : ThreadId) (size : Nat) (kind : BufferKind) :
    Action Buffer := do
  let r ← get
  let needed := (size + old.pending.length) % UInt64.size
  let request := r.options.renewalRequest kind needed
  match ← (lease kind request old.epoch thread).attempt with
  | .error fault =>
    unless fault.endsThread do
      handOff old.rewind
    throw fault
  | .ok fresh =>
    match fresh.carry? old with
    | none =>
      handOff old
      handOff fresh
      throw (.recorder .renewalTooSmall)
    | some (grown, emptied) =>
      handOff emptied
      tally fun s => { s with renewals := s.renewals + 1 }
      pure grown

/-- **Pending bytes are committed and the buffer is full**; a fresh one of the same epoch takes
its place. -/
def flush (old : Buffer) (used requested : Nat) (thread : ThreadId) : Action Buffer := do
  registerFull (old.commit used)
  tally fun s => { s with flushes := s.flushes + 1 }
  lease old.kind requested old.epoch thread

/-- **A writer gives its buffer back.**  Pending bytes are lost.  A carrier thread keeps a buffer
of the current epoch that has room left, in place of the one it had. -/
def release (b : Buffer) (thread : ThreadId) : Action Unit := do
  let r ← get
  let b := b.rewind
  if b.kind = .threadLocal ∧ b.epoch = r.epoch.current ∧ keepBoundRoom ≤ b.free then
    set { r with threadLocal := r.threadLocal.bind thread (some b) }
    match r.threadLocal.bound? thread with
    | none => pure ()
    | some displaced => handOff displaced
  else handOff b

/-- **A carrier thread ends**: its binding goes, and the lease of a bound buffer ends. -/
def releaseThread (thread : ThreadId) : Action Unit := do
  let r ← get
  set { r with threadLocal := r.threadLocal.unbind thread }
  match r.threadLocal.bound? thread with
  | none => pure ()
  | some b => handOff b

end Recorder

end TraceRecorder
