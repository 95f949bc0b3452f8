/-
# Chunk sinks

A sink takes the bytes of a chunk, in order and for good.  It may refuse any call: `appendFault`
and `flushFault` say which ones, by the number of the call, and with which fault.  A refused call
has no effect other than being counted.
-/
import TraceRecorder.Report
import TraceRecorder.Tape

namespace TraceRecorder

/-- A chunk that is being written. -/
structure Sink where
  /-- What was taken so far. -/
  taken : Tape := .empty
  /-- How many calls of each sort there have been. -/
  appends : Nat := 0
  flushes : Nat := 0
  /-- The fault of a call, by its number. -/
  appendFault : Nat → Option Report := fun _ => none
  flushFault : Nat → Option Report := fun _ => none

namespace Sink

/-- **The bytes taken so far.** -/
def content (s : Sink) : Bytes := s.taken.bytes

def committed (s : Sink) : Nat := s.taken.length

/-- **Bytes are added at the end, all of them or none.** -/
def append (s : Sink) (more : Tape) : Except Report Unit × Sink :=
  match s.appendFault s.appends with
  | some fault => (.error fault, { s with appends := s.appends + 1 })
  | none => (.ok (), { s with appends := s.appends + 1, taken := s.taken.join more })

/-- What was taken is passed on. -/
def flush (s : Sink) : Except Report Unit × Sink :=
  match s.flushFault s.flushes with
  | some fault => (.error fault, { s with flushes := s.flushes + 1 })
  | none => (.ok (), { s with flushes := s.flushes + 1 })

end Sink

end TraceRecorder
