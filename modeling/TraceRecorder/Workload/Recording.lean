/-
# Synthetic recordings

A recording carries out a plan: it opens the first chunk file, fills one chunk after the other,
and switches to the next file at each rotation.  Whatever happens, the file of the chunk that is
being written gets all that its sink took, and is let go.
-/
import TraceRecorder.Json.Value
import TraceRecorder.Storage.ChunkFile
import TraceRecorder.Workload.Worker

namespace TraceRecorder

/-! ## 1. Reports -/

/-- What became of a chunk. -/
structure ChunkOutcome where
  path : String
  /-- What the rotation drained. -/
  drained : Nat
  fileBytes : Nat
  deriving DecidableEq, Repr

/-- What a recording did. -/
structure Recording where
  plan : Plan
  epoch : Epoch
  chunks : List ChunkOutcome
  stats : Stats
  deriving DecidableEq, Repr

/-- The counters by their names. -/
def Stats.toJson (s : Stats) : Json :=
  .object
    [("buffers_allocated", .number s.buffersAllocated),
     ("buffers_deallocated", .number s.buffersDeallocated),
     ("buffers_reused", .number s.buffersReused),
     ("bytes_discarded", .number s.bytesDiscarded),
     ("bytes_written", .number s.bytesWritten),
     ("checkpoints_dropped", .number s.checkpointsDropped),
     ("checkpoints_written", .number s.checkpointsWritten),
     ("flushes", .number s.flushes),
     ("renewals", .number s.renewals),
     ("rotations", .number s.rotations),
     ("type_entries_purged", .number s.typeEntriesPurged)]

/-- A chunk in a report. -/
def ChunkOutcome.toJson (c : ChunkOutcome) : Json :=
  .object
    [("drained_bytes", .number c.drained), ("file_bytes", .number c.fileBytes),
     ("path", .text c.path)]

/-- **The report of a recording** that took the given time. -/
def Recording.toJson (r : Recording) (elapsedMs : Nat) : Json :=
  .object
    [("chunks", .array (r.chunks.map ChunkOutcome.toJson)),
     ("elapsed_ms", .number elapsedMs),
     ("epoch", .number r.epoch.value),
     ("out", .text r.plan.out),
     ("stats", r.stats.toJson),
     ("threads", .number r.plan.threads),
     ("virtual_threads", .number r.plan.virtualThreads)]

/-! ## 2. The session -/

/-- A recorder, and the file of the chunk that it writes. -/
structure RecordingSession where
  disk : Disk
  recorder : Recorder
  file : ChunkFile

abbrev RecordingAction := Fallible Fault RecordingSession

namespace RecordingSession

def onDisk {α : Type} (x : DiskAction α) : RecordingAction α :=
  x.zoom RecordingSession.disk (fun s d => { s with disk := d }) id

def onRecorder {α : Type} (x : Action α) : RecordingAction α :=
  x.zoom RecordingSession.recorder (fun s r => { s with recorder := r }) id

/-- What a chunk's sink took goes to its file, and the file is let go. -/
def finishFile (f : ChunkFile) (content : Tape) : DiskAction Unit := do
  let f ← f.append content
  f.close

/-- **The recorder goes on with the next chunk's file.**  The answer is the length of the chunk
that is finished. -/
def nextChunk (path : String) : RecordingAction Nat := do
  let next ← onDisk (ChunkFile.create path)
  let finished ← onRecorder (Recorder.replaceSink {})
  let content := (finished.map Sink.taken).getD .empty
  let s ← get
  onDisk (finishFile s.file content)
  modify fun s => { s with file := next }
  pure content.length

/-- The chunks from a number on.  The length of the last one is known only when the recorder
ends. -/
def runChunks (p : Plan) : (chunk more : Nat) → RecordingAction (List ChunkOutcome × Nat)
  | chunk, 0 => do
    let drained ← onRecorder (p.fillChunk chunk)
    pure ([], drained)
  | chunk, more + 1 => do
    let drained ← onRecorder (p.fillChunk chunk)
    let length ← nextChunk (p.chunkPath (chunk + 1))
    let (rest, last) ← runChunks p (chunk + 1) more
    pure (⟨p.chunkPath chunk, drained, length⟩ :: rest, last)

/-- **All chunks of a plan**, and the end of the recorder. -/
def run (p : Plan) : RecordingAction Recording := do
  onRecorder (Recorder.installSink {})
  let s ← get
  Fallible.settle (Fault.reserve s.recorder.host.memory p.chunkRoom)
  let (chunks, drained) ← runChunks p 1 (p.chunks - 1)
  let s ← get
  let last ← onRecorder Recorder.destroy
  let length := (last.map Sink.committed).getD 0
  pure
    { plan := p
      epoch := s.recorder.epoch.current
      chunks := chunks ++ [⟨p.chunkPath p.chunks, drained, length⟩]
      stats := s.recorder.stats }

end RecordingSession

/-- **A plan is carried out** on a disk, all of it at one moment. -/
def Plan.record (p : Plan) (memory : Memory) (now : UInt64) : DiskAction Recording := do
  match p.fault? with
  | some fault => throw fault
  | none =>
    let options ← p.options
    Disk.createDirectory p.out
    Fallible.settle (Fault.reserve memory p.threadRoom)
    let recorder ← Fallible.settle (Recorder.create options (p.host memory))
    let file ← ChunkFile.create (p.chunkPath 1)
    let disk ← get
    let (answer, s) := Fallible.runOn (RecordingSession.run p) ⟨disk, recorder.setClock now, file⟩
    set s.disk
    RecordingSession.finishFile s.file ((s.recorder.sink.map Sink.taken).getD .empty)
    Fallible.settle answer

end TraceRecorder
