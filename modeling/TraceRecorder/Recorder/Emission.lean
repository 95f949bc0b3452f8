/-
# Checkpoints that the recorder writes

The recorder describes threads and writes static and registered constants as checkpoints of
relations.  Relations without pairs are left out, and a checkpoint without relations is none.
-/
import TraceRecorder.Recorder.Writer

namespace TraceRecorder

namespace Recorder

/-- **One checkpoint of some relations.**  The answer is the number of bytes that it committed,
zero if it was dropped. -/
def writeRelations (thread : ThreadId) (kind : BufferKind) (duringDrain : Bool)
    (relations : List Relation) : Action Nat := do
  match relations.filter fun relation => !relation.isEmpty with
  | [] => pure 0
  | relation :: rest =>
    let w ← Writer.start thread kind duringDrain
    match ← w.appendAll (relation :: rest) with
    | (.ok _, w) => w.finish
    | (.error fault, w) =>
      w.abandon
      throw fault

/-- The static constants, in the order of registration. -/
def writeStatics (thread : ThreadId) : Action Nat := do
  let r ← get
  writeRelations thread .global false r.statics

/-- The table of the threads that are alive. -/
def writeThreads (thread : ThreadId) : Action Nat := do
  let r ← get
  writeRelations thread .global false (ThreadInfo.table r.host.liveThreads)

/-- What makes a chunk readable alone: the static constants and the threads. -/
def writeStaticsAndThreads : Action Nat := do
  let statics ← writeStatics recorderThread
  let threads ← writeThreads recorderThread
  pure (statics + threads)

/-- **The waiting constants are written** and wait no more. -/
def writeTypeSet (duringDrain : Bool := false) : Action Nat := do
  let r ← get
  set { r with typeSet := [] }
  writeRelations recorderThread .global duringDrain r.typeSet.relations

/-- A thread is described in a checkpoint of its own: into the pool of virtual threads if one is
given, which is then described with `thread` as its carrier. -/
def writeCheckpoint (thread : ThreadInfo) (id : Option ThreadId) (mounted : Option ThreadInfo) :
    Action Nat :=
  let relations := thread.checkpointRelations id mounted
  match mounted with
  | some v => writeRelations v.id .virtualThreadLocal false relations
  | none => writeRelations thread.id .threadLocal false relations

/-- A virtual thread is described by its id alone. -/
def writeSimplified (id : ThreadId) : Action Nat :=
  writeRelations id .virtualThreadLocal false [ThreadInfo.simplified id]

end Recorder

end TraceRecorder
