/-
# Plans of synthetic recordings

A plan says how much a synthetic recording writes, and where to: how many carrier threads there
are, how many virtual threads each of them runs, how many checkpoints they write into each chunk
and how large those are.

The options of the recorder come from a file, if the plan names one, and the plan may set the
buffer size of both pools that belong to threads.
-/
import TraceRecorder.OptionsFile
import TraceRecorder.Storage.Disk
import TraceRecorder.Text.Decimal

namespace TraceRecorder

/-- What a synthetic recording does. -/
structure Plan where
  /-- The directory of the chunk files. -/
  out : String
  /-- The file of the recorder's options. -/
  config : Option String := none
  threads : Nat := 4
  /-- Virtual threads for each carrier thread. -/
  virtualThreads : Nat := 0
  /-- Checkpoints for each carrier thread and chunk. -/
  checkpoints : Nat := 100
  /-- Bytes of payload in each checkpoint. -/
  payload : Nat := 256
  chunks : Nat := 1
  /-- The buffer size of the pools of threads, in place of the options' own. -/
  threadBufferSize : Option Nat := none
  deriving DecidableEq, Repr

namespace Plan

def chunkPath (p : Plan) (chunk : Nat) : String :=
  Path.join p.out ("chunk-" ++ Decimal.padded 4 chunk ++ ".ckp")

/-- The fault of a plan without threads or without chunks. -/
def fault? (p : Plan) : Option Fault :=
  if p.threads = 0 then some (.zeroArgument "--threads")
  else if p.chunks = 0 then some (.zeroArgument "--chunks")
  else none

/-- How many bytes the names and numbers of all threads take up. -/
def threadRoom (p : Plan) : Nat := 80 * p.threads

/-- How many bytes the outcomes of all chunks take up, less their paths. -/
def chunkRoom (p : Plan) : Nat := 48 * p.chunks

/-- Options with the plan's buffer size. -/
def resize (p : Plan) (o : RecorderOptions) : RecorderOptions :=
  match p.threadBufferSize with
  | none => o
  | some size =>
    { o with
      threadLocal := { o.threadLocal with bufferSize := size }
      virtualThreadLocal := { o.virtualThreadLocal with bufferSize := size } }

/-- The options of the plan's file, or those of a recorder that is told nothing. -/
def configured (p : Plan) : DiskAction RecorderOptions := do
  match p.config with
  | none => pure RecorderOptions.default
  | some path =>
    let text ← Disk.readText path
    match RecorderOptions.ofText text with
    | .ok o => pure o
    | .error fault => throw (.inFile path fault)

/-- **The options of the recorder.**  Those of a file are held against the rules before and after
their buffer sizes are set. -/
def options (p : Plan) : DiskAction RecorderOptions := do
  let o := p.resize (← p.configured)
  match o.flaw? with
  | none => pure o
  | some flaw => throw (.options flaw)

end Plan

end TraceRecorder
