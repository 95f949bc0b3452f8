/-
# Buffers

A buffer collects the entries of one writer after another.  Its committed bytes are whole
entries, ready to be drained; behind them stand the pending bytes of the entry that is being
written.  Bytes are only ever added behind what is there.  `rewind` gives the room of the pending
bytes back, and `reinitialize` that of all bytes, together with a new epoch tag and a new owner.

A buffer is a pair of tapes with a capacity; nothing of an earlier lease is part of it.
-/
import TraceRecorder.Epoch
import TraceRecorder.Tape
import TraceRecorder.ThreadIdentity

namespace TraceRecorder

/-- The three pools, by who writes into their buffers. -/
inductive BufferKind where
  | global
  | threadLocal
  | virtualThreadLocal
  deriving DecidableEq, Repr, Inhabited

namespace BufferKind

/-- The name of a kind in messages and options. -/
def name : BufferKind → String
  | global => "global"
  | threadLocal => "thread_local"
  | virtualThreadLocal => "virtual_thread_local"

/-- Every kind, in the order in which drains visit them. -/
def all : List BufferKind := [global, threadLocal, virtualThreadLocal]

end BufferKind

/-- Whom a buffer is leased to. -/
inductive Owner where
  | global
  | thread (id : ThreadId)
  deriving DecidableEq, Repr

/-- A slot of the arena and how often it had been emptied when the buffer got it. -/
structure BufferId where
  index : Nat
  generation : UInt32
  deriving DecidableEq, Repr

namespace BufferId

def display (id : BufferId) : String := toString id.index ++ "#" ++ toString id.generation.toNat

end BufferId

/-- A buffer. -/
structure Buffer where
  id : BufferId
  capacity : Nat
  /-- Whole entries. -/
  committed : Tape
  /-- The entry that is being written. -/
  pending : Tape
  epoch : Epoch
  owner : Owner
  kind : BufferKind
  /-- No longer leased: waiting to be drained. -/
  retired : Bool
  deriving DecidableEq, Repr

namespace Buffer

/-- A new buffer: empty, in the first generation, and nobody's. -/
def allocate (id : BufferId) (capacity : Nat) (kind : BufferKind) : Buffer :=
  ⟨id, capacity, .empty, .empty, .zero, .global, kind, false⟩

/-- **The buffer made ready for a new lease.**  The epoch tag changes only here. -/
def reinitialize (b : Buffer) (epoch : Epoch) (owner : Owner) : Buffer :=
  { b with
    committed := .empty, pending := .empty, epoch := epoch, owner := owner, retired := false }

def used (b : Buffer) : Nat := b.committed.length

def position (b : Buffer) : Nat := b.committed.length + b.pending.length

def free (b : Buffer) : Nat := b.capacity - b.position

def isEmpty (b : Buffer) : Bool := b.used == 0

/-- The buffer waits to be drained from now on. -/
def retire (b : Buffer) : Buffer := { b with retired := true }

/-- **The buffer with more pending bytes**, if they fit. -/
def append? (b : Buffer) (bytes : Bytes) : Option Buffer :=
  if b.free < bytes.length then none else some { b with pending := b.pending.append bytes }

/-- The buffer with written bytes replaced, such as a header that was reserved. -/
def patch (b : Buffer) (start : Nat) (bytes : Bytes) : Buffer :=
  { b with
    committed := b.committed.overwrite start bytes
    pending := b.pending.overwrite (start - b.used) (bytes.drop (b.used - start)) }

/-- The first `count` pending bytes are committed, all of them if there are not so many. -/
def commit (b : Buffer) (count : Nat) : Buffer :=
  { b with
    committed := b.committed.join (b.pending.take count), pending := b.pending.drop count }

def commitAll (b : Buffer) : Buffer :=
  { b with committed := b.committed.join b.pending, pending := .empty }

def rewind (b : Buffer) : Buffer := { b with pending := .empty }

/-- **The pending bytes of another buffer moved behind this one's**, if they fit: this buffer,
then the other one. -/
def carry? (b other : Buffer) : Option (Buffer × Buffer) :=
  (b.append? other.pending.bytes).map fun grown => (grown, other.rewind)

/-- The fields of a buffer on one line, contents left out. -/
def display (b : Buffer) : String :=
  let kind := match b.kind with
    | .global => "Global"
    | .threadLocal => "ThreadLocal"
    | .virtualThreadLocal => "VirtualThreadLocal"
  let owner := match b.owner with
    | .global => "Global"
    | .thread id => "Thread(" ++ toString id.toNat ++ ")"
  "Buffer \x7b id: BufferId \x7b index: " ++ toString b.id.index
    ++ ", generation: " ++ toString b.id.generation.toNat
    ++ " \x7d, capacity: " ++ toString b.capacity
    ++ ", committed: " ++ toString b.used
    ++ ", pos: " ++ toString b.position
    ++ ", epoch: Epoch(" ++ toString b.epoch.value ++ "), owner: " ++ owner
    ++ ", kind: " ++ kind
    ++ ", retired: " ++ toString b.retired ++ " \x7d"

end Buffer

/-- How many bytes are committed in some buffers. -/
def usedBytes : List Buffer → Nat
  | [] => 0
  | b :: rest => b.used + usedBytes rest

@[simp] theorem usedBytes_cons (b : Buffer) (rest : List Buffer) :
    usedBytes (b :: rest) = b.used + usedBytes rest := rfl

@[simp] theorem usedBytes_append (a b : List Buffer) :
    usedBytes (a ++ b) = usedBytes a + usedBytes b := by
  induction a with
  | nil => exact (Nat.zero_add _).symm
  | cons x rest ih => rw [List.cons_append, usedBytes_cons, ih, usedBytes_cons, Nat.add_assoc]

end TraceRecorder
