/-
# Contention

Several threads write checkpoints while one more thread rotates.  What the chunk holds in the end
does not depend on the order in which they get their turns: every checkpoint is in it once.  Here
they take turns in rounds, and each round ends with a rotation as long as there are some to come.
-/
import TraceRecorder.Recorder.Drain

namespace TraceRecorder

/-- How many threads write how much, and how many rotations there are. -/
structure Contention where
  threads : Nat
  /-- Checkpoints for each thread. -/
  checkpoints : Nat
  rotations : Nat
  deriving DecidableEq, Repr

namespace Contention

/-- The pool of a checkpoint: every third one is global. -/
def kind (n : Nat) : BufferKind := if n % 3 = 2 then .global else .threadLocal

/-- What a thread writes in a checkpoint: a symbol and a frame with the same key and value. -/
def relations (thread n : Nat) : List Relation :=
  let pair : Pair :=
    (UInt64.ofNat (thread * 1000 + n), List.replicate (37 * n % 300) (UInt8.ofNat thread))
  [⟨ConstantType.symbol, [pair]⟩, ⟨ConstantType.stackFrame, [pair]⟩]

def writers (c : Contention) : List Nat := (List.range c.threads).map (· + 1)

def write (n thread : Nat) : Action Unit := do
  let _ ← Recorder.writeRelations (UInt64.ofNat thread) (kind n) false (relations thread n)

/-- One turn of each thread that has not come to its end. -/
def round (c : Contention) (n : Nat) : Action Unit := do
  if n < c.checkpoints then c.writers.forM (write n)
  if n < c.rotations then
    let _ ← Recorder.rotate

/-- **All threads come to their ends**, and what is pooled then is drained. -/
def run (c : Contention) : Action Unit := do
  (List.range (max c.checkpoints c.rotations)).forM c.round
  c.writers.forM fun thread => Recorder.releaseThread (UInt64.ofNat thread)
  let _ ← Recorder.write

end Contention

end TraceRecorder
