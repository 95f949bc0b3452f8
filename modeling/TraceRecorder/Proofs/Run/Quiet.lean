/-
# Moves that use no sink

A move is quiet if it neither drains nor has to do with the recorder's sink.  Quiet moves leave the
sink alone, the count of the bytes that it took and the mark of an abort, whatever state they are
made in (`quietless_step`).

Of the other moves only a shift can set the mark (`Sound.aborted_step_of_ne_shift`), and none takes
it away (`Sound.aborted_step`).
-/
import TraceRecorder.Proofs.Recorder.Aborts
import TraceRecorder.Proofs.Run.Steps

namespace TraceRecorder

open Fallible (Keeps)

/-- **Whoever makes the move writes**, and tells the recorder nothing. -/
def Move.onlyWrites : Move → Bool
  | start .. | append .. | finish _ | abandon _ | releaseThread _ | writeStatics _ | writeThreads _
  | writeStaticsAndThreads | writeCheckpoint .. | writeSimplified _ => true
  | _ => false

namespace Recorder

/-- The recorder without what quiet moves change. -/
def quietless (r : Recorder) : Recorder :=
  { r.writerless with
    typeSet := [], registered := [], host := {}, notifier := {}, clock := 0
    stats := { r.writerless.stats with typeEntriesPurged := 0 } }

variable {r r' : Recorder}

theorem sink_eq_of_quietless_eq (h : r'.quietless = r.quietless) : r'.sink = r.sink :=
  (congrArg sink h :)

theorem aborted_eq_of_quietless_eq (h : r'.quietless = r.quietless) : r'.aborted = r.aborted :=
  (congrArg aborted h :)

theorem current_eq_of_quietless_eq (h : r'.quietless = r.quietless) :
    r'.epoch.current = r.epoch.current :=
  (congrArg (fun r : Recorder => r.epoch.current) h :)

theorem shifts_eq_of_quietless_eq (h : r'.quietless = r.quietless) :
    r'.epoch.shifts = r.epoch.shifts :=
  (congrArg (fun r : Recorder => r.epoch.shifts) h :)

theorem bytesWritten_eq_of_quietless_eq (h : r'.quietless = r.quietless) :
    r'.stats.bytesWritten = r.stats.bytesWritten :=
  (congrArg (fun r : Recorder => r.stats.bytesWritten) h :)

end Recorder

namespace Run

variable {options : RecorderOptions} {run : Run}

/-! ## 1. Views of the recorder -/

section

variable {γ : Type} {f : Recorder → γ}

theorem view_perform {α : Type} {x : Action α} (hx : Keeps f x) :
    f (run.perform x).2.recorder = f run.recorder := hx run.recorder

theorem view_start {thread : ThreadId} {kind : BufferKind}
    (hx : Keeps f (Writer.start thread kind false)) :
    f (run.start thread kind).2.recorder = f run.recorder := by
  have hkept := hx run.recorder
  unfold Run.start
  rcases hrun : Fallible.runOn (Writer.start thread kind false) run.recorder with ⟨_ | _, r⟩ <;>
    rw [hrun] at hkept <;> exact hkept

theorem view_append {writer : Nat} {segment : Bytes}
    (hx : ∀ w : Writer, Keeps f (w.append segment)) :
    f (run.append writer segment).2.recorder = f run.recorder := by
  unfold Run.append
  cases run.writers[writer]? with
  | none => rfl
  | some w =>
    have hkept := hx w run.recorder
    dsimp only
    rcases hrun : Fallible.runOn (w.append segment) run.recorder with ⟨_ | ⟨_, _⟩, r⟩ <;>
      rw [hrun] at hkept <;> exact hkept

theorem view_close {α : Type} {writer : Nat} {x : Writer → Action α} (hx : ∀ w, Keeps f (x w)) :
    f (run.close writer x).2.recorder = f run.recorder := by
  unfold Run.close
  cases run.writers[writer]? with
  | none => rfl
  | some w => exact hx w run.recorder

end

/-- **A move that only writes changes nothing but what writers change.** -/
theorem writerless_step (run : Run) {m : Move} (hm : m.onlyWrites = true) :
    (run.step m).recorder.writerless = run.recorder.writerless := by
  cases m with
  | start thread kind => exact view_start (Writer.keeps_start thread kind false)
  | append writer segment => exact view_append fun w => w.keeps_append segment
  | finish writer => exact view_close Writer.keeps_finish
  | abandon writer => exact view_close Writer.keeps_abandon
  | releaseThread thread =>
    exact view_perform (Recorder.keeps_writerless (Recorder.keeps_releaseThread thread))
  | writeStatics thread =>
    exact view_perform (x := Recorder.writeStatics thread) (Recorder.keeps_writeStatics thread)
  | writeThreads thread =>
    exact view_perform (x := Recorder.writeThreads thread) (Recorder.keeps_writeThreads thread)
  | writeStaticsAndThreads => exact view_perform Recorder.keeps_writeStaticsAndThreads
  | writeCheckpoint thread id mounted =>
    exact view_perform (Recorder.keeps_writeCheckpoint thread id mounted)
  | writeSimplified id =>
    exact view_perform (x := Recorder.writeSimplified id)
      (Recorder.keeps_writeRelations id .virtualThreadLocal false _)
  | _ => cases hm

/-- **A quiet move changes nothing but the pools, who is active in the epoch, and what is told or
counted of checkpoints.** -/
theorem quietless_step (run : Run) {m : Move} (hm : m.quiet = true) :
    (run.step m).recorder.quietless = run.recorder.quietless := by
  cases hw : m.onlyWrites with
  | true =>
    have hwritten := run.writerless_step hw
    exact (congrArg Recorder.quietless hwritten :)
  | false =>
    cases m with
    | writeTypeSet =>
      have hwritten := Recorder.writerless_writeTypeSet false run.recorder
      exact (congrArg Recorder.quietless hwritten :)
    | registerStatic | changeStatic | registerConstant | clearTypeSet | purgeUnloading | changeHost
    | setClock | notifyThreads => rfl
    | write | flushTypeSet | clear | shift | rotate | installSink | replaceSink => cases hm
    | _ => cases hw

/-- A sink is only finished where the next chunk begins. -/
theorem finished_step {m : Move} (hne : ∀ sink, m ≠ .replaceSink sink) :
    (run.step m).finished = run.finished := by
  cases m with
  | start thread kind =>
    show (run.start thread kind).2.finished = run.finished
    unfold Run.start
    rcases Fallible.runOn (Writer.start thread kind false) run.recorder with ⟨_ | _, _⟩ <;> rfl
  | append writer segment =>
    show (run.append writer segment).2.finished = run.finished
    unfold Run.append
    cases run.writers[writer]? with
    | none => rfl
    | some w =>
      dsimp only
      rcases Fallible.runOn (w.append segment) run.recorder with ⟨_ | _, _⟩ <;> rfl
  | finish writer =>
    show (run.close writer Writer.finish).2.finished = run.finished
    unfold Run.close
    cases run.writers[writer]? <;> rfl
  | abandon writer =>
    show (run.close writer Writer.abandon).2.finished = run.finished
    unfold Run.close
    cases run.writers[writer]? <;> rfl
  | replaceSink sink => exact absurd rfl (hne sink)
  | _ => rfl

theorem sinks_step (run : Run) {m : Move} (hm : m.quiet = true) :
    (run.step m).sinks = run.sinks := by
  have hne : ∀ sink, m ≠ .replaceSink sink := by
    rintro sink rfl
    cases hm
  rw [sinks, sinks, finished_step hne, Recorder.sink_eq_of_quietless_eq (run.quietless_step hm)]

/-! ## 2. New sinks -/

end Run

/-- The sink that a move brings, if the recorder takes it. -/
def Move.brings (m : Move) (run : Run) : List Sink :=
  match m with
  | .installSink sink | .replaceSink sink => if (run.fault? m).isNone then [sink] else []
  | _ => []

namespace Run

variable {options : RecorderOptions} {run : Run}

/-- **The sinks that some moves bring**, oldest first. -/
def brings (run : Run) : List Move → List Sink
  | [] => []
  | m :: rest => m.brings run ++ (run.step m).brings rest

theorem recorder_installSink (run : Run) (sink : Sink) :
    ∃ s, (run.step (.installSink sink)).recorder = { run.recorder with sink := s } := by
  cases hs : run.recorder.sink with
  | none => exact ⟨some sink, by simp [Run.step, Run.act, Run.perform, Recorder.installSink, hs]⟩
  | some old =>
    have hsame : (run.step (.installSink sink)).recorder = run.recorder := by
      simp [Run.step, Run.act, Run.perform, Recorder.installSink, hs]
    exact ⟨run.recorder.sink, hsame⟩

theorem recorder_replaceSink (run : Run) (sink : Sink) :
    ∃ s, (run.step (.replaceSink sink)).recorder = { run.recorder with sink := s } := by
  have hreplace := run.recorder.ends_replaceSink sink
  simp only [Run.step, Run.act, Run.replaceSink]
  rcases hrun : Fallible.runOn (Recorder.replaceSink sink) run.recorder with ⟨fault | old, r⟩
  · obtain ⟨s, rfl, -⟩ := hreplace.run_eq hrun
    exact ⟨s, rfl⟩
  · obtain ⟨rfl, -⟩ := hreplace.run_eq hrun
    exact ⟨some sink, rfl⟩

/-- **A new sink stands behind all others**, which have the bytes that they had. -/
theorem contents_installSink (run : Run) (sink : Sink) :
    (run.step (.installSink sink)).sinks.map Sink.content =
      (run.sinks ++ (Move.installSink sink).brings run).map Sink.content := by
  cases hs : run.recorder.sink <;>
    simp [Run.step, Run.act, Run.perform, Recorder.installSink, Move.brings, fault?, faultOf, sinks,
      hs]

theorem contents_replaceSink (run : Run) (sink : Sink) :
    (run.step (.replaceSink sink)).sinks.map Sink.content =
      (run.sinks ++ (Move.replaceSink sink).brings run).map Sink.content := by
  have hreplace := run.recorder.ends_replaceSink sink
  have hmap : ∀ o : Option Sink, o.toList.map Sink.content = (o.map Sink.content).toList := by
    intro o
    cases o <;> rfl
  rcases hrun : Fallible.runOn (Recorder.replaceSink sink) run.recorder with ⟨fault | old, r⟩
  · obtain ⟨sink', rfl, hcontent⟩ := hreplace.run_eq hrun
    have hact : run.replaceSink sink =
        (some fault, { run with recorder := { run.recorder with sink := sink' } }) := by
      rw [Run.replaceSink, hrun]
    simp [Run.step, Run.act, Move.brings, fault?, sinks, hact, hmap, hcontent]
  · obtain ⟨rfl, hcontent⟩ := hreplace.run_eq hrun
    have hact : run.replaceSink sink = (none, { run with
        recorder := run.recorder.withSink sink, finished := run.finished ++ old.toList }) := by
      rw [Run.replaceSink, hrun]
    simp [Run.step, Run.act, Move.brings, fault?, sinks, hact, hmap, hcontent, Recorder.withSink]

/-! ## 3. Aborts -/

/-- **Only a shift aborts a recorder.** -/
theorem Sound.aborted_step_of_ne_shift (h : run.Sound options) {m : Move} (hm : m ≠ .shift) :
    (run.step m).recorder.aborted = run.recorder.aborted := by
  cases hq : m.quiet with
  | true => exact Recorder.aborted_eq_of_quietless_eq (run.quietless_step hq)
  | false =>
    cases m with
    | write => exact view_perform Recorder.keeps_aborted_write
    | flushTypeSet => exact view_perform Recorder.keeps_aborted_flushTypeSet
    | clear => exact view_perform Recorder.keeps_aborted_clear
    | shift => exact absurd rfl hm
    | rotate => exact h.recorder.aborted_rotate
    | installSink sink =>
      obtain ⟨s, hs⟩ := run.recorder_installSink sink
      rw [hs]
    | replaceSink sink =>
      obtain ⟨s, hs⟩ := run.recorder_replaceSink sink
      rw [hs]
    | _ => cases hq

/-- **An abort is for good.** -/
theorem Sound.aborted_step (h : run.Sound options) (m : Move) (ha : run.recorder.aborted = true) :
    (run.step m).recorder.aborted = true := by
  cases m with
  | shift =>
    show (Fallible.runOn Recorder.shift run.recorder).2.aborted = true
    rw [Recorder.runOn_shift_of_aborted ha]
    exact ha
  | _ => exact (h.aborted_step_of_ne_shift Move.noConfusion).trans ha

end Run

end TraceRecorder
