/-
# Workers

A worker is what one carrier thread does for one chunk: it describes itself, writes checkpoints
of a frame and a symbol each, and runs virtual threads, of which every other one is described in
full and the others by their ids alone.  Before the workers begin a chunk gets constants of
eight classes, and the first two of them are unloaded before it is rotated.

Workers do not depend on each other.  Here they take turns, one after the other.
-/
import TraceRecorder.Recorder.Drain
import TraceRecorder.Workload.Plan

namespace TraceRecorder

/-- Memory for something that is no buffer is asked for. -/
def Recorder.reserve (size : Nat) : Action Unit := do
  let r ← get
  Fallible.settle (Fault.reserve r.host.memory size)

namespace Plan

/-! ## 1. Threads -/

def carrier (worker : Nat) : ThreadInfo :=
  .carrier (UInt64.ofNat (1 + worker)) ("worker-" ++ toString worker) 10 "workers"

def virtualId (p : Plan) (worker n : Nat) : ThreadId :=
  UInt64.ofNat (1000000 + (worker * p.virtualThreads + n))

/-- The host on a machine, in which all carrier threads are alive. -/
def host (p : Plan) (memory : Memory) : Host :=
  (List.range p.threads).foldl (fun h worker => h.attach (carrier worker)) { memory := memory }

/-! ## 2. Checkpoints -/

def payloadOf (p : Plan) (worker : Nat) : Bytes := List.replicate p.payload (UInt8.ofNat worker)

/-- What a relation of one payload takes in memory once it is a segment. -/
def payloadRoom (p : Plan) : Nat := Segment.headerLength + (Segment.pairHeaderLength + p.payload)

/-- The relations of a checkpoint of a carrier thread. -/
def checkpointRelations (p : Plan) (chunk worker seq : Nat) : List Relation :=
  [⟨ConstantType.stackFrame, [(UInt64.ofNat seq, p.payloadOf worker)]⟩,
   ⟨ConstantType.symbol,
     [(UInt64.ofNat seq, Bytes.ofText ("frame-" ++ toString chunk ++ "-" ++ toString seq))]⟩]

/-- A checkpoint of a carrier thread. -/
def writeFrame (p : Plan) (chunk worker seq : Nat) : Action Unit := do
  Recorder.reserve p.payloadRoom
  let _ ← Recorder.writeRelations (carrier worker).id .threadLocal false
    (p.checkpointRelations chunk worker seq)

/-- A virtual thread: its description, then a checkpoint of one event. -/
def runVirtual (p : Plan) (worker n : Nat) : Action Unit := do
  let id := p.virtualId worker n
  let _ ←
    if n % 2 = 0 then
      Recorder.writeCheckpoint (carrier worker) none
        (some (.virtualThread id ("vthread-" ++ toString id.toNat)))
    else Recorder.writeSimplified id
  Recorder.reserve p.payloadRoom
  let _ ← Recorder.writeRelations id .virtualThreadLocal false
    [⟨ConstantType.firstFree, [(id, p.payloadOf worker)]⟩]

/-- **A worker.** -/
def work (p : Plan) (chunk worker : Nat) : Action Unit := do
  let _ ← Recorder.writeCheckpoint (carrier worker) none none
  Recorder.reserve p.payload
  (List.range p.checkpoints).forM (p.writeFrame chunk worker)
  (List.range p.virtualThreads).forM (p.runVirtual worker)
  Recorder.releaseThread (carrier worker).id

/-- A worker on a thread of its own.  What ends its thread ends no other, and what ends the program
ends all. -/
def workApart (p : Plan) (chunk worker : Nat) : Action (Except Fault Unit) := do
  match ← (p.work chunk worker).attempt with
  | .ok _ => pure (.ok ())
  | .error fault => if fault.endsProgram then throw fault else pure (.error fault.ofWorker)

/-- All workers.  Each of them goes on to its own end, and then the first fault is passed on. -/
def workAll (p : Plan) (chunk : Nat) : Action Unit := do
  let answers ← (List.range p.threads).mapM (p.workApart chunk)
  answers.forM Fallible.settle

/-! ## 3. Chunks -/

def classId (chunk n : Nat) : ClassId := UInt64.ofNat (chunk * UInt32.size + n)

/-- The constant of a class. -/
def classConstant (chunk n : Nat) : PendingConstant :=
  { typeId := ConstantType.classes
    key := classId chunk n
    value := Field.encodeAll
      [.text ("com/example/Class" ++ toString chunk ++ "_" ++ toString n)]
    referent := some (classId chunk n) }

def registerClasses (r : Recorder) (chunk : Nat) : Recorder :=
  (List.range 8).foldl (fun r n => r.registerConstant (classConstant chunk n)) r

/-- The first classes of a chunk are unloaded. -/
def unloadClasses (r : Recorder) (chunk : Nat) : Recorder :=
  let classes := (List.range 2).map (classId chunk)
  (r.changeHost (·.markUnloading classes)).purgeUnloading.2.changeHost Host.finishUnloading

/-- **A chunk is filled and completed.**  The answer is what its rotation drained. -/
def fillChunk (p : Plan) (chunk : Nat) : Action Nat := do
  modify fun r => registerClasses r chunk
  p.workAll chunk
  modify fun r => unloadClasses r chunk
  Recorder.rotate

end Plan

end TraceRecorder
