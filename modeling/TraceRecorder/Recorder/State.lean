/-
# The state of a recorder

A recorder owns three pools of buffers, the epoch protocol, the constants that wait to be
written, and the sink of the current chunk.  Buffers that writers hold are not part of it.

The clock is part of the state and moves only by `setClock`: an operation sees one moment.
-/
import TraceRecorder.Fault
import TraceRecorder.Notifier
import TraceRecorder.Pool.Space
import TraceRecorder.Sink
import TraceRecorder.StaticConstants
import TraceRecorder.Stats
import TraceRecorder.TypeSet

namespace TraceRecorder

/-- The thread id under which a recorder writes on its own behalf. -/
def recorderThread : ThreadId := 0

/-- A recorder. -/
structure Recorder where
  options : RecorderOptions
  global : Space
  threadLocal : Space
  virtualThreadLocal : Space
  epoch : EpochController := {}
  typeSet : TypeSet := []
  /-- What the serializers that were registered write at present, in the order of registration. -/
  registered : List Relation := []
  host : Host := {}
  sink : Option Sink := none
  notifier : Notifier := {}
  stats : Stats := {}
  /-- An epoch violation was found. -/
  aborted : Bool := false
  /-- Nanoseconds since 1970. -/
  clock : UInt64 := 0

abbrev Action := Fallible Fault Recorder

namespace Recorder

/-- Why there is no memory for the buffers that a recorder is to start with, if there is none for
the first one of a pool. -/
def shortage? (options : RecorderOptions) (memory : Memory) : Option MemoryFault :=
  (BufferKind.all.map options.space).findSome? fun o =>
    if o.preallocCount = 0 then none else Memory.refusal? memory.grants o.bufferSize

/-- **A new recorder**, unless its options break a rule. -/
def create (options : RecorderOptions) (host : Host := {}) : Except Fault Recorder :=
  match options.flaw? with
  | some flaw => .error (.options flaw)
  | none =>
    match shortage? options host.memory with
    | some fault => .error (.memory fault)
    | none => .ok
      { options := options
        global := .create .global options.global
        threadLocal := .create .threadLocal options.threadLocal
        virtualThreadLocal := .create .virtualThreadLocal options.virtualThreadLocal
        host := host
        stats := { buffersAllocated := options.preallocated } }

/-- The pool of a kind. -/
def space (r : Recorder) : BufferKind → Space
  | .global => r.global
  | .threadLocal => r.threadLocal
  | .virtualThreadLocal => r.virtualThreadLocal

/-- The recorder with the pool of a kind replaced. -/
def setSpace (r : Recorder) (kind : BufferKind) (s : Space) : Recorder :=
  match kind with
  | .global => { r with global := s }
  | .threadLocal => { r with threadLocal := s }
  | .virtualThreadLocal => { r with virtualThreadLocal := s }

def count (r : Recorder) (f : Stats → Stats) : Recorder := { r with stats := f r.stats }

/-- The recorder with the epoch protocol moved on. -/
def moveEpoch (r : Recorder) (f : EpochController → EpochController) : Recorder :=
  { r with epoch := f r.epoch }

def setClock (r : Recorder) (now : UInt64) : Recorder := { r with clock := now }

def changeHost (r : Recorder) (f : Host → Host) : Recorder := { r with host := f r.host }

/-- **The relations that are written at every rotation**, in the order of registration. -/
def statics (r : Recorder) : List Relation := StaticConstants.builtin ++ r.registered

/-- One more relation is written at every rotation. -/
def registerStatic (r : Recorder) (relation : Relation) : Recorder :=
  { r with registered := r.registered ++ [relation] }

/-- Serializers are asked anew each time; one of those that were registered writes another relation
from now on. -/
def changeStatic (r : Recorder) (place : Nat) (relation : Relation) : Recorder :=
  { r with registered := r.registered.set place relation }

/-- **A constant waits to be written.** -/
def registerConstant (r : Recorder) (c : PendingConstant) : Recorder :=
  { r with typeSet := r.typeSet.register c }

/-- The waiting constants are discarded.  Says how many there were. -/
def clearTypeSet (r : Recorder) : Nat × Recorder := (r.typeSet.length, { r with typeSet := [] })

/-- **The waiting constants that refer to a class about to be unloaded are discarded.**  Says how
many there were, which is counted too. -/
def purgeUnloading (r : Recorder) : Nat × Recorder :=
  let purged := r.typeSet.purgeCount r.host.unloading
  (purged,
    { r with
      typeSet := r.typeSet.purge r.host.unloading
      stats := { r.stats with typeEntriesPurged := r.stats.typeEntriesPurged + purged } })

/-- Waiting threads are told of the current epoch. -/
def notifyThreads (r : Recorder) : Recorder :=
  { r with notifier := r.notifier.post r.epoch.current }

/-- **A writer could begin now**: no barrier is up. -/
def admitsWriter (r : Recorder) : Bool := r.epoch.admitsWriter

/-- **A drain could begin now**: no barrier is up and no writer is active. -/
def admitsDrain (r : Recorder) : Bool := r.epoch.admitsBarrier

@[simp] theorem space_setSpace_self (r : Recorder) (kind : BufferKind) (s : Space) :
    (r.setSpace kind s).space kind = s := by cases kind <;> rfl

theorem space_setSpace_of_ne (r : Recorder) {kind other : BufferKind} (s : Space)
    (h : other ≠ kind) : (r.setSpace kind s).space other = r.space other := by
  cases kind <;> cases other <;> first | rfl | exact absurd rfl h

/-- An operation on the pool of a kind. -/
def onSpace {α : Type} (kind : BufferKind) (x : SpaceAction α) : Action α :=
  x.zoom (fun r => r.space kind) (fun r s => r.setSpace kind s) Fault.pool

def tally (f : Stats → Stats) : Action Unit := modify fun r => r.count f

end Recorder

end TraceRecorder
