/-
# Recorders that were aborted

An epoch violation aborts a recorder, and from then on it neither takes nor gives anything: a new
writer is gone before its first segment, so nothing that is written reaches a buffer, and all drains
and shifts are refused.  Here the runs of these operations are computed, answer and state.

Only a shift that finds something undrained aborts.  Every other operation leaves the mark as it is
(`keeps_aborted_*`).  A rotation shifts too, but it has detached all that could stand against that
(`Sound.aborted_rotate`).
-/
import TraceRecorder.Proofs.Recorder.Rotations
import TraceRecorder.Proofs.Recorder.Untouched

namespace TraceRecorder

open Fallible (Ends Keeps)

/-! ## 1. Writers -/

namespace Writer

variable {w : Writer} {r : Recorder}

theorem Gone.runOn_finish (hw : w.Gone) : Fallible.runOn w.finish r = (.ok 0, w.left r) := by
  simp [finish, hw.runOn_close, runOn_unpin]

theorem Gone.runOn_abandon (hw : w.Gone) : Fallible.runOn w.abandon r = (.ok (), w.left r) := by
  simp [abandon, releaseBuffer, hw.buffer, runOn_unpin]

/-- **A new writer of an aborted recorder is gone.** -/
theorem runOn_start_of_aborted (ha : r.aborted = true) (thread : ThreadId) (kind : BufferKind)
    {duringDrain : Bool} :
    Fallible.runOn (start thread kind duringDrain) r =
      (.ok (newborn thread kind duringDrain r).gone, entered duringDrain r) := by
  cases duringDrain <;> simp [start, ha, newborn, entered]

theorem left_newborn_entered (thread : ThreadId) (kind : BufferKind) (r : Recorder) :
    (newborn thread kind false r).gone.left (entered false r) = r := by
  show { r with epoch := r.epoch.enter.leave r.epoch.current } = r
  rw [EpochController.leave_enter]

end Writer

namespace Recorder

variable {r : Recorder} {out : List Buffer}

/-! ## 2. What an aborted recorder answers -/

theorem relationEntries_of_aborted {duringDrain : Bool} (ha : r.aborted = true) (thread : ThreadId)
    (kind : BufferKind) (relations : List Relation) :
    r.relationEntries thread kind duringDrain relations = {} := by
  have hgone := Writer.gone_gone (Writer.newborn thread kind duringDrain r)
  unfold relationEntries
  split
  · rfl
  · simp only [Writer.runOn_start_of_aborted ha, hgone.cutOffs_eq, hgone.runOn_appendAll,
      hgone.lastPiece?_eq, Option.toList_none]

section

variable (ha : r.aborted = true)
include ha

/-- **Nothing is written**, and the recorder is as it was. -/
theorem runOn_writeRelations_of_aborted (thread : ThreadId) (kind : BufferKind)
    (relations : List Relation) :
    Fallible.runOn (writeRelations thread kind false relations) r = (.ok 0, r) := by
  have hgone := Writer.gone_gone (Writer.newborn thread kind false r)
  unfold writeRelations
  split
  · rfl
  · simp only [Fallible.runOn_bind, Writer.runOn_start_of_aborted ha, hgone.runOn_appendAll,
      hgone.runOn_finish, Writer.left_newborn_entered]

theorem runOn_writeStatics_of_aborted (thread : ThreadId) :
    Fallible.runOn (writeStatics thread) r = (.ok 0, r) := by
  simp [writeStatics, runOn_writeRelations_of_aborted ha]

theorem runOn_writeTypeSet_of_aborted :
    Fallible.runOn (writeTypeSet false) r = (.ok 0, { r with typeSet := [] }) := by
  have hcleared : ({ r with typeSet := [] } : Recorder).aborted = true := ha
  simp [writeTypeSet, runOn_writeRelations_of_aborted hcleared]

/-- **All drains and shifts are refused.** -/
theorem runOn_write_of_aborted : Fallible.runOn write r = (.error (.recorder .aborted), r) := by
  simp [write, detachForWrite, ensureLive, ha]

theorem runOn_rotate_of_aborted : Fallible.runOn rotate r = (.error (.recorder .aborted), r) := by
  simp [rotate, detachForRotation, ensureLive, ha]

theorem runOn_shift_of_aborted : Fallible.runOn shift r = (.error (.recorder .aborted), r) := by
  simp [shift, ensureLive, ha]

theorem runOn_flushTypeSet_of_aborted :
    Fallible.runOn flushTypeSet r = (.error (.recorder .aborted), r) := by
  simp [flushTypeSet, runOn_writeRelations_of_aborted ha, runOn_write_of_aborted ha]

end

/-! ## 3. What aborts a recorder -/

section

variable {α : Type} {x : Action α}

theorem keeps_aborted_of_writerless (h : Keeps writerless x) : Keeps aborted x :=
  h.coarser fun _ => rfl

theorem keeps_aborted_of_leaseless (h : Keeps leaseless x) : Keeps aborted x :=
  h.coarser fun _ => rfl

end

theorem keeps_aborted_emit (d : Detached) : Keeps aborted (emit d) :=
  (keeps_emit d).coarser fun _ => rfl

theorem keeps_aborted_detachForWrite : Keeps aborted detachForWrite :=
  keeps_detachForWrite.coarser fun _ => rfl

theorem keeps_aborted_write : Keeps aborted write := keeps_write.coarser fun _ => rfl

theorem keeps_aborted_flushTypeSet : Keeps aborted flushTypeSet :=
  .get_bind fun r => ((keeps_aborted_of_writerless (keeps_writeRelations recorderThread .global
    false r.typeSet.relations)).bind fun _ => keeps_aborted_write) r

theorem aborted_writeTypeSet (duringDrain : Bool) (r : Recorder) :
    (Fallible.runOn (writeTypeSet duringDrain) r).2.aborted = r.aborted :=
  (congrArg aborted (writerless_writeTypeSet duringDrain r) :)

/-- **A rotation does not abort**: all that could stand against its shift is detached. -/
theorem Sound.aborted_detachForRotation (h : r.Sound out r.epoch.current) :
    Ends Recorder.detachForRotation r fun _ r' => r'.aborted = r.aborted := by
  have htables : ∀ {answer r₁}, Fallible.runOn Recorder.writeStaticsAndThreads r = (answer, r₁) →
      r₁.aborted = r.aborted := fun hrun =>
    ((keeps_aborted_of_writerless keeps_writeStaticsAndThreads).ends r).run_eq hrun
  have htypes : ∀ {answer} {r₁ r₂ : Recorder}, Fallible.runOn (Recorder.writeTypeSet true)
      (r₁.moveEpoch EpochController.raise) = (answer, r₂) → r₂.aborted = r₁.aborted := by
    intro answer r₁ r₂ hrun
    have hkept := aborted_writeTypeSet true (r₁.moveEpoch EpochController.raise)
    rwa [hrun] at hkept
  refine h.firstHalf.mono ?_
  rintro answer r' hcase
  cases hcase with
  | refused hno => rfl
  | tables hready hrun => exact htables hrun
  | types hready hrun ht hlast => exact (htypes hlast).trans (htables hrun)
  | detached hready hrun ht hlast ht' hdetach =>
    have hdetached := ((keeps_aborted_of_leaseless (keeps_detach _)).ends _).run_eq hdetach
    exact hdetached.trans ((htypes hlast).trans (htables hrun))

theorem Sound.aborted_rotate (h : r.Sound out r.epoch.current) :
    (Fallible.runOn Recorder.rotate r).2.aborted = r.aborted := by
  suffices hrotate : Ends Recorder.rotate r fun _ r' => r'.aborted = r.aborted from hrotate
  refine h.aborted_detachForRotation.bind (fun d r₁ hr₁ => ?_) fun fault r₁ hr₁ => hr₁
  exact ((keeps_aborted_emit d).ends r₁).mono fun _ _ hr' => hr'.trans hr₁

theorem keeps_aborted_clear : Keeps aborted clear := keeps_clear.coarser fun _ => rfl

end Recorder

end TraceRecorder
