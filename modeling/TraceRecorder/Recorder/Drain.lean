/-
# Drains and rotations

A drain takes the buffers of the current epoch out of the pools and then appends their committed
bytes to the sink.  Only the first step needs the barrier: `detach` runs while no writer is
active, `emit` runs afterwards and does not look at what writers have done since.

* `write` drains and stays in the epoch; `clear` discards what both epochs hold.
* `shift` flips the epoch, which is allowed only when nothing of it is left to drain.  If
  something is, the recorder is aborted: no drain and no shift succeeds any more, and writers are
  dropped.
* `rotate` makes a chunk complete: static constants and threads, waiting constants, everything
  that was pooled, then the flip.
-/
import TraceRecorder.Recorder.Emission

namespace TraceRecorder

/-- The buffers of one generation, taken out of the pools. -/
structure Detached where
  global : List Buffer
  threadLocal : List Buffer
  virtualThreadLocal : List Buffer
  deriving Repr

/-- The buffers by pool, in the order in which they are emitted. -/
def Detached.parts (d : Detached) : List (BufferKind × List Buffer) :=
  [(.global, d.global), (.threadLocal, d.threadLocal),
   (.virtualThreadLocal, d.virtualThreadLocal)]

/-- How far an emission has come. -/
structure Emitted where
  written : Nat := 0
  /-- The first fault of the sink: nothing more is appended after it. -/
  failure : Option Fault := none
  deriving Repr

namespace Recorder

/-! ## 1. The barrier -/

/-- **An operation under the barrier**, which goes down again also after a fault.  It is told the
epoch that the barrier found. -/
def underBarrier {α : Type} (x : Epoch → Action α) : Action α := do
  let r ← get
  set (r.moveEpoch EpochController.raise)
  let answer ← (x r.epoch.current).attempt
  modify fun r => r.moveEpoch EpochController.lower
  Fallible.settle answer

def ensureLive : Action Unit := do
  let r ← get
  if r.aborted then throw (.recorder .aborted) else pure ()

def ensureSink : Action Unit := do
  let r ← get
  if r.sink.isNone then throw (.recorder .noSink) else pure ()

/-! ## 2. Taking buffers out of the pools -/

/-- The bound buffers that satisfy a test are taken out of their bindings, by ascending
thread. -/
def takeBound (test : Buffer → Bool) : Action (List Buffer) := do
  let r ← get
  set { r with threadLocal := r.threadLocal.withoutBound test }
  pure (r.threadLocal.boundWhere test)

/-- **The buffers of an epoch leave the pools**: full ones in the order of registration, and
behind those of carrier threads the bound ones. -/
def detach (epoch : Epoch) : Action Detached := do
  let global ← onSpace .global (Space.takeFull epoch)
  let full ← onSpace .threadLocal (Space.takeFull epoch)
  let bound ← takeBound fun b => b.epoch == epoch
  let virtual ← onSpace .virtualThreadLocal (Space.takeFull epoch)
  pure ⟨global, full ++ bound, virtual⟩

/-- The buffers of both epochs leave the pools. -/
def detachAll : Action Detached := do
  let global ← onSpace .global Space.takeAllFull
  let full ← onSpace .threadLocal Space.takeAllFull
  let bound ← takeBound fun _ => true
  let virtual ← onSpace .virtualThreadLocal Space.takeAllFull
  pure ⟨global, full ++ bound, virtual⟩

/-! ## 3. Emitting -/

/-- The committed bytes of one buffer are appended to the sink, unless it failed before. -/
def emitBuffer (e : Emitted) (b : Buffer) : Action Emitted := do
  if e.failure.isSome || b.isEmpty then pure e
  else
    let r ← get
    match r.sink with
    | none => pure { e with failure := some (.recorder .noSink) }
    | some sink =>
      let (answer, sink) := sink.append b.committed
      set { r with sink := some sink }
      match answer with
      | .ok _ => pure { e with written := e.written + b.used }
      | .error fault => pure { e with failure := some (.sink fault) }

/-- The buffers of each pool are appended, and then come back to it. -/
def emitParts : List (BufferKind × List Buffer) → Emitted → Action Emitted
  | [], e => pure e
  | (kind, buffers) :: rest, e => do
    let e ← buffers.foldlM emitBuffer e
    reclaim kind buffers
    emitParts rest e

/-- The sink passes on what it took, unless it failed before. -/
def flushSink (e : Emitted) : Action Emitted := do
  let r ← get
  match e.failure, r.sink with
  | some _, _ | _, none => pure e
  | none, some sink =>
    let (answer, sink) := sink.flush
    set { r with sink := some sink }
    match answer with
    | .ok _ => pure e
    | .error fault => pure { e with failure := some (.sink fault) }

/-- **Detached buffers are appended to the sink** in order, up to its first fault, and all of them
come back to their pools.  The answer is how many bytes the sink took. -/
def emit (detached : Detached) : Action Nat := do
  let e ← emitParts detached.parts {}
  let e ← flushSink e
  tally fun s => { s with bytesWritten := s.bytesWritten + e.written }
  match e.failure with
  | some fault => throw fault
  | none => pure e.written

/-- The first half of `write`. -/
def detachForWrite : Action Detached := do
  ensureLive
  ensureSink
  underBarrier detach

/-- **The current epoch is drained** to the sink, and stays current. -/
def write : Action Nat := do
  let detached ← detachForWrite
  emit detached

/-- The constants that wait are written, and still wait; then the current epoch is drained. -/
def flushTypeSet : Action Nat := do
  let r ← get
  let _ ← writeRelations recorderThread .global false r.typeSet.relations
  write

/-! ## 4. Discarding -/

/-- Detached buffers come back to their pools, and the answer is what they held. -/
def discardParts : List (BufferKind × List Buffer) → Nat → Action Nat
  | [], discarded => pure discarded
  | (kind, buffers) :: rest, discarded => do
    reclaim kind buffers
    discardParts rest (discarded + usedBytes buffers)

/-- **Everything that is pooled is discarded**, in both epochs. -/
def clear : Action Nat := do
  let detached ← underBarrier fun _ => detachAll
  let discarded ← discardParts detached.parts 0
  tally fun s => { s with bytesDiscarded := s.bytesDiscarded + discarded }
  pure discarded

/-! ## 5. Shifts and rotations -/

/-- How many pooled buffers of an epoch hold committed bytes. -/
def undrained (r : Recorder) (epoch : Epoch) : Nat :=
  r.global.undrained epoch + r.threadLocal.undrained epoch
    + r.virtualThreadLocal.undrained epoch
    + (r.threadLocal.boundWhere fun b => b.epoch == epoch && !b.isEmpty).length

/-- **The epoch flips, if nothing of it is left to drain**, and otherwise the recorder is
aborted. -/
def shiftUnderBarrier (retiring : Epoch) : Action Epoch := do
  let r ← get
  let left := r.undrained retiring
  if left = 0 then
    let r := r.moveEpoch EpochController.flip
    set r
    pure r.epoch.current
  else
    set { r with aborted := true }
    throw (.recorder (.undrained left retiring))

/-- The epoch flips.  The answer is the new one. -/
def shift : Action Epoch := do
  ensureLive
  underBarrier shiftUnderBarrier

/-- The first half of `rotate`: all that happens before the sink is used. -/
def detachForRotation : Action Detached := do
  ensureLive
  ensureSink
  let _ ← writeStaticsAndThreads
  let detached ← underBarrier fun retiring => do
    let _ ← writeTypeSet true
    let detached ← detach retiring
    let _ ← shiftUnderBarrier retiring
    pure detached
  tally fun s => { s with rotations := s.rotations + 1 }
  modify notifyThreads
  pure detached

/-- **The chunk is completed and the epoch retired.**  Writers go on in the new epoch while the
old one is emitted. -/
def rotate : Action Nat := do
  let detached ← detachForRotation
  emit detached

/-! ## 6. The sink -/

/-- The recorder gets its first sink. -/
def installSink (sink : Sink) : Action Unit := do
  let r ← get
  match r.sink with
  | some _ => throw (.recorder .alreadyInitialized)
  | none => set { r with sink := some sink }

/-- The sink passes on what it took. -/
def flushOrThrow : Action Unit := do
  let e ← flushSink {}
  match e.failure with
  | some fault => throw fault
  | none => pure ()

/-- **The next chunk begins**: the answer is the sink of the last one, which has passed on all
that it took. -/
def replaceSink (sink : Sink) : Action (Option Sink) := do
  flushOrThrow
  let r ← get
  set { r with sink := some sink }
  pure r.sink

/-- **The recorder ends**: what is still pooled is discarded, and the answer is its sink. -/
def destroy : Action (Option Sink) := do
  let _ ← clear
  flushOrThrow
  let r ← get
  pure r.sink

end Recorder

end TraceRecorder
