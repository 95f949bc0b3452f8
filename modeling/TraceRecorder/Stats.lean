/-
# Counters

What a recorder has done so far, in numbers.
-/
namespace TraceRecorder

/-- The counters of a recorder. -/
structure Stats where
  buffersAllocated : Nat := 0
  buffersReused : Nat := 0
  buffersDeallocated : Nat := 0
  /-- Buffers that were replaced by larger ones. -/
  renewals : Nat := 0
  /-- Entries that were cut off as flushpoints. -/
  flushes : Nat := 0
  checkpointsWritten : Nat := 0
  checkpointsDropped : Nat := 0
  /-- Bytes that reached a sink. -/
  bytesWritten : Nat := 0
  bytesDiscarded : Nat := 0
  rotations : Nat := 0
  typeEntriesPurged : Nat := 0
  deriving DecidableEq, Repr

end TraceRecorder
