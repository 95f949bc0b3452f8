/-
# Writers

A writer writes one checkpoint: a row of segments in one entry, or in several if they do not fit.
While it is open it is active in its epoch, so no drain of that epoch can begin.

* A segment that does not fit an entry without segments moves the entry to a larger buffer.
* A segment that does not fit any other entry closes that entry as a flushpoint, and the
  checkpoint goes on in a fresh buffer.
* If no buffer can be had the checkpoint is dropped: what it had pending is lost, the writer
  takes no more segments, and nobody else is disturbed.
-/
import TraceRecorder.Recorder.Lease

namespace TraceRecorder

/-- A checkpoint that is being written. -/
structure Writer where
  thread : ThreadId
  kind : BufferKind
  buffer : Option Buffer := none
  /-- Where the current entry starts in the buffer. -/
  entryStart : Nat := 0
  /-- Segments in the current entry, as far as a 32-bit word counts them. -/
  segments : UInt32 := 0
  /-- Entries used so far, counted likewise. -/
  pieces : UInt32 := 1
  startTime : UInt64
  /-- Bytes committed so far. -/
  written : Nat := 0
  dropped : Bool := false
  /-- The generation in which the writer is active; a writer that is part of a drain is not. -/
  pinned : Option Epoch := none
  deriving DecidableEq, Repr

namespace Writer

/-! ## 1. Entries in the buffer -/

/-- The writer with room for a header at the end of its buffer. -/
def openEntry (w : Writer) (b : Buffer) : Writer :=
  { w with
    buffer := some ((b.append? (List.replicate Header.length 0)).getD b)
    entryStart := b.position
    segments := 0 }

def entrySize (w : Writer) (b : Buffer) : Nat := b.position - w.entryStart

/-- The buffer with the header of the current entry filled in. -/
def sealEntry (w : Writer) (b : Buffer) (now : UInt64) (flushpoint : Bool) : Buffer :=
  let duration := if now < w.startTime then 0 else now - w.startTime
  b.patch w.entryStart (Header.forPayload (w.entrySize b - Header.length) w.startTime
    duration flushpoint w.segments).encode

/-! ## 2. Giving up -/

/-- The lease of the writer's buffer ends, if it has one. -/
def releaseBuffer (w : Writer) : Action Unit :=
  match w.buffer with
  | some b => Recorder.release b w.thread
  | none => pure ()

/-- The writer without a buffer, taking no more segments. -/
def gone (w : Writer) : Writer := { w with buffer := none, dropped := true }

/-- **The checkpoint is dropped.**  A fault in giving the buffer back changes nothing more. -/
def drop (w : Writer) : Action Writer := do
  Recorder.tally fun s => { s with checkpointsDropped := s.checkpointsDropped + 1 }
  let _ ← w.releaseBuffer.attempt
  pure w.gone

/-- The writer is active no more. -/
def unpin (w : Writer) : Action Unit :=
  match w.pinned with
  | some epoch => modify fun r => r.moveEpoch (·.leave epoch)
  | none => pure ()

/-- A writer meets a fault: exhaustion drops the checkpoint, any other fault ends the writer and
is passed on. -/
def fail (w : Writer) (fault : Fault) : Action (Except Fault Unit × Writer) := do
  if fault.isExhausted then
    let w ← w.drop
    pure (.ok (), w)
  else
    let _ ← w.releaseBuffer.attempt
    pure (.error fault, w.gone)

/-! ## 3. Writing -/

/-- **A checkpoint begins.**  A writer that is part of a drain uses the retiring epoch and is not
active in it. -/
def start (thread : ThreadId) (kind : BufferKind) (duringDrain : Bool) : Action Writer := do
  let r ← get
  let pinned := if duringDrain then none else some r.epoch.current
  unless duringDrain do
    set (r.moveEpoch EpochController.enter)
  let w : Writer := { thread := thread, kind := kind, startTime := r.clock, pinned := pinned }
  if r.aborted then pure w.gone
  else
    match ← (Recorder.acquire thread kind duringDrain Header.length).attempt with
    | .ok b => pure (w.openEntry b)
    | .error fault =>
      if fault.endsThread then
        w.unpin
        throw fault
      else w.drop

/-- The segment goes behind the current entry, for which there must be room. -/
def place (w : Writer) (b : Buffer) (segment : Bytes) : Action (Except Fault Unit × Writer) :=
  match b.append? segment with
  | some b => pure (.ok (), { w with buffer := some b, segments := w.segments + 1 })
  | none => fail { w with buffer := some b } (.recorder .segmentTooLarge)

/-- **One more segment.**  The answer is that of the call; the writer is there in any case. -/
def append (w : Writer) (segment : Bytes) : Action (Except Fault Unit × Writer) := do
  match w.dropped, w.buffer with
  | true, _ | _, none => pure (.ok (), w)
  | false, some b =>
    if segment.length ≤ b.free then w.place b segment
    else if w.segments = 0 then
      match ← (Recorder.renew b w.thread segment.length w.kind).attempt with
      | .ok renewed => place { w with entryStart := renewed.used } renewed segment
      | .error fault => fail { w with buffer := none } fault
    else
      let r ← get
      let used := w.entrySize b
      let flushed ← (Recorder.flush (w.sealEntry b r.clock true) used
        (Header.length + segment.length) w.thread).attempt
      match flushed with
      | .ok fresh =>
        let w := openEntry { w with written := w.written + used, pieces := w.pieces + 1 } fresh
        match w.buffer with
        | some fresh => w.place fresh segment
        | none => pure (.ok (), w)
      | .error fault => fail { w with buffer := none } fault

/-- The last entry is committed, and the answer is what the checkpoint committed. -/
def close (w : Writer) : Action Nat := do
  if w.dropped then pure 0
  else if w.segments = 0 then
    w.releaseBuffer
    pure w.written
  else
    let r ← get
    Recorder.tally fun s => { s with checkpointsWritten := s.checkpointsWritten + 1 }
    match w.buffer with
    | none => pure w.written
    | some b =>
      let size := w.entrySize b
      releaseBuffer { w with buffer := some (w.sealEntry b r.clock false).commitAll }
      pure (w.written + size)

/-- **The checkpoint ends.** -/
def finish (w : Writer) : Action Nat := do
  let answer ← w.close.attempt
  w.unpin
  Fallible.settle answer

/-- Some relations, one segment each, up to the first that meets a fault. -/
def appendAll (w : Writer) : List Relation → Action (Except Fault Unit × Writer)
  | [] => pure (.ok (), w)
  | relation :: rest => do
    match ← w.append relation.encode with
    | (.ok _, w) => w.appendAll rest
    | (.error fault, w) => pure (.error fault, w)

/-- **The writer is abandoned**: entries that were cut off as flushpoints stay, the current one
is lost. -/
def abandon (w : Writer) : Action Unit := do
  let _ ← w.releaseBuffer.attempt
  w.unpin

end Writer

end TraceRecorder
