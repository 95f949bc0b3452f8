/-
# Pools of buffers

A space is the pool of one buffer kind.  A buffer of it is on the free list, on the full list or
leased, and the arena records which; leased buffers are held outside, by writers, by drains or in
the bindings of threads.  Free buffers are used again before new ones are made, and a request at
the limit makes room by giving up the smallest free buffer.

Full buffers queue up in the order in which they were registered, and a drain takes those of one
epoch in that order.
-/
import TraceRecorder.Fallible
import TraceRecorder.Options
import TraceRecorder.Pool.Arena
import TraceRecorder.Pool.Shelf

namespace TraceRecorder

/-- How a lease was met. -/
inductive Acquired where
  | reused
  | allocated (evicted : Bool)
  deriving DecidableEq, Repr

/-- The sizes of a space. -/
structure SpaceCounts where
  live : Nat
  free : Nat
  full : Nat
  boundThreads : Nat
  deriving DecidableEq, Repr

/-- The pool of one buffer kind. -/
structure Space where
  kind : BufferKind
  options : SpaceOptions
  arena : Arena := {}
  free : Shelf := .empty
  /-- The one that was registered last comes first. -/
  full : List Buffer := []
  /-- Threads that have used the space, each with the buffer that is bound to it. -/
  bindings : Dict ThreadId (Option Buffer) := []
  deriving DecidableEq

abbrev SpaceAction := Fallible PoolFault Space

namespace Space

/-- A space with its first free buffers. -/
def create (kind : BufferKind) (options : SpaceOptions) : Space where
  kind := kind
  options := options
  arena := .ofFree options.preallocCount
  free := .ofList ((List.range options.preallocCount).map fun index =>
    .allocate ⟨index, 0⟩ options.bufferSize kind)

def counts (s : Space) : SpaceCounts :=
  ⟨s.arena.live, s.free.length, s.full.length, s.bindings.length⟩

/-! ## 1. Leases -/

/-- A buffer's slot changes its state. -/
def move (id : BufferId) (source target : SlotState) : SpaceAction Unit := do
  let s ← get
  match s.arena.transition id source target with
  | .error fault => throw fault
  | .ok arena => set { s with arena := arena }

/-- A buffer's slot becomes vacant. -/
def giveUp (id : BufferId) (source : SlotState) : SpaceAction Unit := do
  let s ← get
  match s.arena.remove id source with
  | .error fault => throw fault
  | .ok arena => set { s with arena := arena }

/-- A new buffer is made.  That there is no memory for it is found out only when the slot is
taken. -/
def allocate (grants : Nat → Bool) (size : Nat) (epoch : Epoch) (owner : Owner) :
    SpaceAction Buffer := do
  let s ← get
  let (id, arena) := s.arena.insert
  set { s with arena := arena }
  let capacity := max size s.options.bufferSize
  match Memory.refusal? grants capacity with
  | some fault => throw (.memory fault)
  | none =>
    let b := Buffer.allocate id capacity s.kind
    pure <| Buffer.reinitialize b epoch owner

/-- Room is made for a new buffer, by giving up the smallest free one if the space is full.
Says whether one was given up. -/
def makeRoom : SpaceAction Bool := do
  let s ← get
  if s.arena.live < s.options.limit then pure false
  else
    match s.free.takeSmallest? with
    | none => throw (.limitReached s.kind s.options.limit)
    | some (victim, rest) =>
      set { s with free := rest }
      giveUp victim.id .free
      pure true

/-- **A leased buffer with room for `size` bytes**: the first free one that is large enough, or
else a new one, for which the machine has to grant the memory. -/
def acquire (grants : Nat → Bool) (size : Nat) (epoch : Epoch) (owner : Owner) :
    SpaceAction (Buffer × Acquired) := do
  let s ← get
  if s.options.maxBufferSize < size then throw (.oversized s.kind size)
  else
    match s.free.takeFirst? (.atLeast size) with
    | some (b, rest) =>
      set { s with free := rest }
      move b.id .free .leased
      pure ( Buffer.reinitialize b epoch owner, .reused)
    | none =>
      let evicted ← makeRoom
      let b ← allocate grants size epoch owner
      pure (b, .allocated evicted)

/-- **A leased buffer becomes visible to drains**, behind all full buffers.  What was pending in
it is lost. -/
def registerFull (b : Buffer) : SpaceAction Unit := do
  move b.id .leased .full
  modify fun s => { s with full := b.rewind.retire :: s.full }

/-- One leased buffer comes back.  Says whether it was given up because enough are free. -/
def reclaimOne (b : Buffer) : SpaceAction Bool := do
  let s ← get
  if s.free.length < s.options.cacheCount then
    move b.id .leased .free
    modify fun s => { s with free := s.free.push <| Buffer.reinitialize b b.epoch .global }
    pure false
  else
    giveUp b.id .leased
    pure true

/-- **Leased buffers come back** one after the other.  Says how many were given up. -/
def reclaim : List Buffer → SpaceAction Nat
  | [] => pure 0
  | b :: rest => do
    let givenUp ← reclaimOne b
    let more ← reclaim rest
    pure (more + if givenUp then 1 else 0)

/-! ## 2. Drains -/

/-- The slots of some full buffers become leased. -/
def leaseFull : List Buffer → SpaceAction Unit
  | [] => pure ()
  | b :: rest => do
    move b.id .full .leased
    leaseFull rest

/-- The full buffers that satisfy a test are taken off the list, in the order of registration. -/
def takeFullWhere (test : Buffer → Bool) : SpaceAction (List Buffer) := do
  let s ← get
  let taken := (s.full.filter test).reverse
  set { s with full := s.full.filter fun b => !test b }
  leaseFull taken
  pure taken

/-- **The full buffers of an epoch**, in the order of registration. -/
def takeFull (epoch : Epoch) : SpaceAction (List Buffer) :=
  takeFullWhere fun b => b.epoch == epoch

/-- All full buffers, in the order of registration. -/
def takeAllFull : SpaceAction (List Buffer) := takeFullWhere fun _ => true

/-- How many full buffers of an epoch hold committed bytes. -/
def undrained (s : Space) (epoch : Epoch) : Nat :=
  s.full.countP fun b => b.epoch == epoch && !b.isEmpty

/-! ## 3. Bindings -/

/-- The buffer that is bound to a thread. -/
def bound? (s : Space) (thread : ThreadId) : Option Buffer :=
  (Dict.find? s.bindings thread).join

/-- **A thread's binding holds a buffer or nothing** from now on.  The thread counts as bound in
both cases. -/
def bind (s : Space) (thread : ThreadId) (b : Option Buffer) : Space :=
  { s with bindings := Dict.insert s.bindings thread b }

def unbind (s : Space) (thread : ThreadId) : Space :=
  { s with bindings := Dict.erase s.bindings thread }

/-- The bound buffers that satisfy a test, by ascending thread. -/
def boundWhere (s : Space) (test : Buffer → Bool) : List Buffer :=
  (Dict.values s.bindings).filterMap fun b => b.filter test

/-- The space with the bound buffers that satisfy a test taken out of their bindings. -/
def withoutBound (s : Space) (test : Buffer → Bool) : Space :=
  { s with bindings := s.bindings.map fun entry => (entry.1, entry.2.filter fun b => !test b) }

end Space

end TraceRecorder
