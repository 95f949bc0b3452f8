/-
# A rotation is complete

In every state that a run can reach, a rotation gets through if no writer is open, the recorder was
not aborted and its sink accepts every call: no violation of the epoch protocol stands against it,
since it detaches all that its epoch has pooled (`Reachable.rotation`).  Checkpoints can be lost
only where a pool is exhausted, and then that is counted.

The sizes of a buffer that is always large enough to be had are 32-bit words (`Modest`), and the
relations that are written are byte strings that can stand in memory.
-/
import TraceRecorder.Proofs.Recorder.Completion
import TraceRecorder.Proofs.Run.Steps

namespace TraceRecorder

open Fallible (Ends)

namespace Run

variable {options : RecorderOptions} {run : Run}

/-- **A rotation is complete and aborts nothing.**  It answers how many bytes the chunk gained,
flips the epoch once, gives one notice and leaves neither waiting constants nor a committed byte in
any pool.  If no checkpoint was dropped meanwhile, the chunk has gained all that was pooled and
three checkpoints: the static constants, the threads and the waiting constants.  Without a sink, or
after an abort, a rotation is refused and changes nothing.

The three checkpoints are written into the generation that retires, while the barrier is up and
before the epoch flips, so the chunk that is completed has them.  Anything may have happened before:
all that matters is that no writer is open, that the sink accepts what comes, and that each relation
fits into memory. -/
theorem Reachable.rotation (h : Reachable options run) (hm : options.Modest .global)
    (hw : run.writers = []) (hs : ∀ relation ∈ run.recorder.rotationRelations,
      relation.encode.length ≤ Memory.addressable) :
    (∀ s, run.recorder.aborted = false → run.recorder.sink = some s → s.Reliable →
      ∃ gained : Bytes,
        (Fallible.runOn Recorder.rotate run.recorder).1 = .ok gained.length ∧
        run.recorder.Rotated gained (Fallible.runOn Recorder.rotate run.recorder).2) ∧
    (run.recorder.aborted = true → Fallible.runOn Recorder.rotate run.recorder =
      (.error (.recorder .aborted), run.recorder)) ∧
    (run.recorder.aborted = false → run.recorder.sink = none →
      Fallible.runOn Recorder.rotate run.recorder =
        (.error (.recorder .noSink), run.recorder)) := by
  have hsound := h.sound
  have hrecorder := hsound.recorder
  rw [held_eq_nil hw] at hrecorder
  refine ⟨fun s ha hsink hr => ?_, fun ha => ?_, fun ha hsink => ?_⟩
  · exact hrecorder.rotate_completes hsound.barrier ha hsink hr (hsound.options ▸ hm) hs
  · simp [Recorder.rotate, Recorder.detachForRotation, Recorder.ensureLive, ha]
  · simp [Recorder.rotate, Recorder.detachForRotation, Recorder.ensureLive, Recorder.ensureSink, ha,
      hsink]

/-- The options of a recorder with room for a whole rotation. -/
def roomyOptions : RecorderOptions :=
  ⟨⟨512, 2048, 1, 1, 8⟩, ⟨64, 128, 1, 1, 2⟩, ⟨64, 128, 1, 1, 2⟩, 2⟩

/-- A recorder with room for a whole rotation, before the first move. -/
def roomy : Run where
  recorder :=
    { options := roomyOptions
      global := .create .global roomyOptions.global
      threadLocal := .create .threadLocal roomyOptions.threadLocal
      virtualThreadLocal := .create .virtualThreadLocal roomyOptions.virtualThreadLocal
      stats := { buffersAllocated := roomyOptions.preallocated } }

theorem create_roomy : Recorder.create roomyOptions {} = .ok roomy.recorder := rfl

/-- Two threads of one group are alive, a constant waits, and entries are pooled. -/
def busy : Run := roomy.walk
  [.changeHost (·.attach (.carrier 3 "a" 9 "g")), .changeHost (·.attach (.carrier 4 "b" 9 "g")),
   .registerConstant ⟨200, 1, [7], none⟩, .start 3 .threadLocal, .append 0 [1, 2, 3], .finish 0,
   .start 3 .global, .append 0 [4, 5], .finish 0]

/-- A rotation of a recorder with waiting constants and two threads of one group completes the
chunk. -/
theorem Reachable.rotation_busy :
    let run := busy.step (.installSink {})
    ∃ gained : Bytes,
      (Fallible.runOn Recorder.rotate run.recorder).1 = .ok gained.length ∧
      run.recorder.Rotated gained (Fallible.runOn Recorder.rotate run.recorder).2 ∧
      ∃ statics threads types, run.recorder.Completes gained statics threads types := by
  intro run
  have h : Reachable roomyOptions run :=
    ((Reachable.create create_roomy).walk _ (by decide +kernel)).step _ (by decide +kernel)
  have hnone : busy.recorder.sink = none := Option.isNone_iff_eq_none.1 (by decide +kernel)
  have hsink : run.recorder.sink = some {} := by
    simp [run, Run.step, Run.act, Run.perform, Recorder.installSink, hnone]
  have hm : roomyOptions.Modest .global := by decide
  obtain ⟨gained, hanswer, hrotated⟩ := (h.rotation hm (by decide +kernel) (by decide +kernel)).1 {}
    (by decide +kernel) hsink ⟨fun _ => rfl, fun _ => rfl⟩
  exact ⟨gained, hanswer, hrotated, hrotated.complete (by decide +kernel)⟩

end Run

end TraceRecorder
