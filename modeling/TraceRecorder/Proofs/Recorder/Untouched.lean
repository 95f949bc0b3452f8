/-
# What operations leave alone

Each of the sorts of operations on a recorder has its own parts of the state, and what it
leaves alone is a view: the recorder with those parts blanked.

* `leaseless`: leases change the pools, and the counters of leases;
* `writerless`: writers also enter and leave the epoch, and count their checkpoints;
* `sinkless`: an emission also uses the sink, and counts the bytes that the sink took;
* `discardless`: a discard also raises the barrier, and counts the bytes that it discards;
* `drainless`: a drain changes what emissions and discards change;
* `shiftless`: a shift changes the epoch, and may abort the recorder;
* `retireless`: retiring an epoch changes what writers and shifts change, and what waits or is told;
* `rotationless`: a rotation also uses the sink.

An operation keeps its view from any state, whatever it answers (`Keeps`), so nothing has to be
known of the recorder.  What can be read off a view is kept with it (`Keeps.coarser`).
-/
import TraceRecorder.Proofs.Recorder.Writers
import TraceRecorder.Recorder.Drain

namespace TraceRecorder

open Fallible (Ends Keeps)

namespace Recorder

/-! ## 1. Views -/

/-- The recorder without what leases change. -/
def leaseless (r : Recorder) : Recorder :=
  { r.surroundings with
    stats := { r.stats with
      buffersAllocated := 0, buffersReused := 0, buffersDeallocated := 0, renewals := 0
      flushes := 0 } }

/-- The recorder without what writers change. -/
def writerless (r : Recorder) : Recorder :=
  { r.leaseless with
    epoch := { r.epoch with writers := {} }
    stats := { r.leaseless.stats with checkpointsWritten := 0, checkpointsDropped := 0 } }

def sinkless (r : Recorder) : Recorder :=
  { r.leaseless with sink := none, stats := { r.leaseless.stats with bytesWritten := 0 } }

/-- The recorder without what discards change. -/
def discardless (r : Recorder) : Recorder :=
  { r.leaseless with
    epoch := { r.epoch with barrier := none }
    stats := { r.leaseless.stats with bytesDiscarded := 0 } }

def drainless (r : Recorder) : Recorder :=
  { r.discardless with
    sink := none, stats := { r.discardless.stats with bytesWritten := 0 } }

def shiftless (r : Recorder) : Recorder := { r with epoch := {}, aborted := false }

/-- The recorder without what the first half of a rotation changes. -/
def retireless (r : Recorder) : Recorder :=
  { r.writerless.shiftless with
    typeSet := [], notifier := {}, stats := { r.writerless.stats with rotations := 0 } }

def rotationless (r : Recorder) : Recorder :=
  { r.retireless with sink := none, stats := { r.retireless.stats with bytesWritten := 0 } }

variable {α : Type} {x : Action α}

theorem keeps_writerless (h : Keeps leaseless x) : Keeps writerless x := h.coarser fun _ => rfl

theorem keeps_sinkless (h : Keeps leaseless x) : Keeps sinkless x := h.coarser fun _ => rfl

theorem keeps_discardless (h : Keeps leaseless x) : Keeps discardless x := h.coarser fun _ => rfl

/-! ## 2. Leases -/

theorem keeps_onSpace (kind : BufferKind) (x : SpaceAction α) :
    Keeps leaseless (onSpace kind x) := by
  intro r
  cases kind <;> rfl

theorem keeps_countLease (how : Acquired) : Keeps leaseless (tally (countLease how)) := by
  rcases how with _ | _ | _ <;> exact .update fun _ => rfl

theorem keeps_lease (kind : BufferKind) (size : Nat) (e : Epoch) (thread : ThreadId) :
    Keeps leaseless (lease kind size e thread) :=
  keeps_lease_of (fun _ => keeps_onSpace _ _) keeps_countLease

theorem keeps_reclaim (kind : BufferKind) (buffers : List Buffer) :
    Keeps leaseless (reclaim kind buffers) :=
  (keeps_onSpace _ _).bind fun _ => .update fun _ => rfl

theorem keeps_handOff (b : Buffer) : Keeps leaseless (handOff b) := by
  unfold handOff
  split
  · exact keeps_reclaim _ _
  · exact keeps_onSpace _ _

theorem keeps_leaseEpoch (duringDrain : Bool) : Keeps leaseless (leaseEpoch duringDrain) := by
  refine .get_bind fun r => ?_
  split
  · split <;> rfl
  · rfl

theorem keeps_acquire (thread : ThreadId) (kind : BufferKind) (duringDrain : Bool) (size : Nat) :
    Keeps leaseless (acquire thread kind duringDrain size) := by
  refine (keeps_leaseEpoch _).bind fun e => ?_
  split
  · refine Keeps.bind (.get_bind fun r => rfl) ?_
    rintro (_ | b)
    · exact keeps_lease _ _ _ _
    · dsimp only
      split
      · exact .pure b
      · exact (keeps_handOff b).bind fun _ => keeps_lease _ _ _ _
  · exact keeps_lease _ _ _ _

theorem keeps_renew (old : Buffer) (thread : ThreadId) (size : Nat) (kind : BufferKind) :
    Keeps leaseless (renew old thread size kind) := by
  refine .get_bind fun r => ?_
  refine (keeps_lease kind _ _ _).attempt.bind (fun answer => ?_) r
  cases answer with
  | error fault =>
    dsimp only
    split
    · exact .throw fault
    · exact (keeps_handOff _).bind fun _ => .throw fault
  | ok fresh =>
    dsimp only
    split
    · exact (keeps_handOff _).bind fun _ => (keeps_handOff _).bind fun _ => .throw _
    · exact (keeps_handOff _).bind fun _ => Keeps.bind (.update fun _ => rfl) fun _ => .pure _

theorem keeps_flush (old : Buffer) (used requested : Nat) (thread : ThreadId) :
    Keeps leaseless (flush old used requested thread) :=
  (keeps_onSpace _ _).bind fun _ =>
    Keeps.bind (.update fun _ => rfl) fun _ => keeps_lease _ _ _ _

theorem keeps_release (b : Buffer) (thread : ThreadId) : Keeps leaseless (release b thread) := by
  refine .get_bind fun r => ?_
  dsimp only
  split
  · rw [Fallible.runOn_bind, Fallible.runOn_set]
    cases r.threadLocal.bound? thread with
    | none => rfl
    | some displaced => exact keeps_handOff displaced _
  · exact keeps_handOff _ r

theorem keeps_releaseThread (thread : ThreadId) : Keeps leaseless (releaseThread thread) := by
  refine .get_bind fun r => ?_
  rw [Fallible.runOn_bind, Fallible.runOn_set]
  cases r.threadLocal.bound? thread with
  | none => rfl
  | some b => exact keeps_handOff b _

end Recorder

/-! ## 3. Writers -/

namespace Writer

open Recorder

variable (w : Writer)

theorem keeps_releaseBuffer : Keeps leaseless w.releaseBuffer := by
  unfold releaseBuffer
  split
  · exact keeps_release _ _
  · exact .pure _

theorem keeps_unpin : Keeps writerless w.unpin := by
  unfold unpin
  split
  · exact .update fun _ => rfl
  · exact .pure _

theorem keeps_drop : Keeps writerless w.drop :=
  Keeps.bind (.update fun _ => rfl) fun _ =>
    (keeps_writerless w.keeps_releaseBuffer).attempt.bind fun _ => .pure _

theorem keeps_fail (fault : Fault) : Keeps writerless (w.fail fault) := by
  unfold fail
  split
  · exact w.keeps_drop.bind fun _ => .pure _
  · exact (keeps_writerless w.keeps_releaseBuffer).attempt.bind fun _ => .pure _

theorem keeps_place (b : Buffer) (segment : Bytes) : Keeps writerless (w.place b segment) := by
  unfold place
  split
  · exact .pure _
  · exact keeps_fail _ _

theorem keeps_start (thread : ThreadId) (kind : BufferKind) (duringDrain : Bool) :
    Keeps writerless (start thread kind duringDrain) := by
  intro r
  have hentered : (entered duringDrain r).writerless = r.writerless := by
    cases duringDrain <;> rfl
  have hacquire := (keeps_writerless (keeps_acquire thread kind duringDrain Header.length)).ends
    (entered duringDrain r)
  have hleft : ∀ (w : Writer) r₁, (w.left r₁).writerless = r₁.writerless := by
    intro w r₁
    unfold left
    cases w.pinned <;> rfl
  suffices h : Ends (start thread kind duringDrain) r
      fun _ r' => r'.writerless = r.writerless from h
  refine (starting thread kind duringDrain r).mono ?_
  rintro answer r' hcase
  cases hcase with
  | aborted ha => exact hentered
  | began ha hrun => exact (hacquire.run_eq hrun).trans hentered
  | refused ha hrun hf => exact (hleft _ _).trans ((hacquire.run_eq hrun).trans hentered)
  | dropped ha hrun hf hdrop =>
    exact (((keeps_drop _).ends _).run_eq hdrop).trans ((hacquire.run_eq hrun).trans hentered)

theorem keeps_append (segment : Bytes) : Keeps writerless (w.append segment) := by
  unfold append
  split
  · exact .pure _
  · exact .pure _
  · split
    · exact w.keeps_place _ _
    · split
      · refine (keeps_writerless (keeps_renew _ _ _ _)).attempt.bind ?_
        rintro (fault | renewed)
        · exact keeps_fail _ fault
        · exact keeps_place _ renewed segment
      · refine .get_bind fun r => (keeps_writerless (keeps_flush _ _ _ _)).attempt.bind ?_ r
        rintro (fault | fresh)
        · exact keeps_fail _ fault
        · dsimp only
          split
          · exact keeps_place _ _ segment
          · exact .pure _

theorem keeps_close : Keeps writerless w.close := by
  unfold close
  split
  · exact .pure _
  · split
    · exact (keeps_writerless w.keeps_releaseBuffer).bind fun _ => .pure _
    · have hcount : Keeps writerless
          (tally fun s => { s with checkpointsWritten := s.checkpointsWritten + 1 }) :=
        .update fun _ => rfl
      refine .get_bind fun r => hcount.bind (fun _ => ?_) r
      split
      · exact .pure _
      · exact (keeps_writerless (keeps_releaseBuffer _)).bind fun _ => .pure _

theorem keeps_finish : Keeps writerless w.finish :=
  w.keeps_close.attempt.bind fun answer => w.keeps_unpin.bind fun _ => .settle answer

theorem keeps_abandon : Keeps writerless w.abandon :=
  (keeps_writerless w.keeps_releaseBuffer).attempt.bind fun _ => w.keeps_unpin

theorem keeps_appendAll (relations : List Relation) : Keeps writerless (w.appendAll relations) := by
  induction relations generalizing w with
  | nil => exact .pure _
  | cons relation rest ih =>
    refine (w.keeps_append relation.encode).bind ?_
    rintro ⟨_ | _, w'⟩
    · exact .pure _
    · exact ih w'

end Writer

namespace Recorder

theorem keeps_writeRelations (thread : ThreadId) (kind : BufferKind) (duringDrain : Bool)
    (relations : List Relation) :
    Keeps writerless (writeRelations thread kind duringDrain relations) := by
  unfold writeRelations
  split
  · exact .pure _
  · refine (Writer.keeps_start thread kind duringDrain).bind fun w =>
      (w.keeps_appendAll _).bind ?_
    rintro ⟨fault | _, w'⟩
    · exact w'.keeps_abandon.bind fun _ => .throw fault
    · exact w'.keeps_finish

theorem keeps_writeStatics (thread : ThreadId) : Keeps writerless (writeStatics thread) :=
  .get_bind fun r => keeps_writeRelations thread .global false r.statics r

theorem keeps_writeThreads (thread : ThreadId) : Keeps writerless (writeThreads thread) :=
  .get_bind fun r => keeps_writeRelations thread .global false _ r

theorem keeps_writeStaticsAndThreads : Keeps writerless writeStaticsAndThreads :=
  (keeps_writeStatics _).bind fun _ => (keeps_writeThreads _).bind fun _ => .pure _

theorem keeps_writeCheckpoint (thread : ThreadInfo) (id : Option ThreadId)
    (mounted : Option ThreadInfo) : Keeps writerless (writeCheckpoint thread id mounted) := by
  cases mounted with
  | some v => exact keeps_writeRelations v.id .virtualThreadLocal false _
  | none => exact keeps_writeRelations thread.id .threadLocal false _

theorem writerless_writeTypeSet (duringDrain : Bool) (r : Recorder) :
    (Fallible.runOn (writeTypeSet duringDrain) r).2.writerless =
      { r.writerless with typeSet := [] } :=
  keeps_writeRelations recorderThread .global duringDrain r.typeSet.relations
    { r with typeSet := [] }

/-! ## 4. Drains -/

theorem keeps_detach (e : Epoch) : Keeps leaseless (detach e) :=
  (keeps_onSpace _ _).bind fun _ => (keeps_onSpace _ _).bind fun _ =>
    Keeps.bind (fun _ => rfl) fun _ => (keeps_onSpace _ _).bind fun _ => .pure _

theorem keeps_emitBuffer (progress : Emitted) (b : Buffer) :
    Keeps sinkless (emitBuffer progress b) := by
  unfold emitBuffer
  split
  · exact .pure _
  · refine .get_bind fun r => ?_
    split
    · rfl
    · rename_i s _
      rcases s.append b.committed with ⟨_ | _, _⟩ <;> rfl

theorem keeps_foldlM_emitBuffer (buffers : List Buffer) (progress : Emitted) :
    Keeps sinkless (buffers.foldlM emitBuffer progress) := by
  induction buffers generalizing progress with
  | nil => exact .pure progress
  | cons b rest ih => exact (keeps_emitBuffer progress b).bind ih

theorem keeps_emitParts (parts : List (BufferKind × List Buffer)) (progress : Emitted) :
    Keeps sinkless (emitParts parts progress) := by
  induction parts generalizing progress with
  | nil => exact .pure progress
  | cons part rest ih =>
    exact (keeps_foldlM_emitBuffer _ _).bind fun _ =>
      (keeps_sinkless (keeps_reclaim _ _)).bind fun _ => ih _

theorem keeps_flushSink (progress : Emitted) : Keeps sinkless (flushSink progress) := by
  refine .get_bind fun r => ?_
  split
  · rfl
  · rfl
  · rename_i s _ _
    rcases s.flush with ⟨_ | _, _⟩ <;> rfl

theorem keeps_emit (d : Detached) : Keeps sinkless (emit d) := by
  refine (keeps_emitParts _ _).bind fun _ => (keeps_flushSink _).bind fun progress =>
    Keeps.bind (.update fun _ => rfl) fun _ => ?_
  cases progress.failure with
  | none => exact .pure _
  | some fault => exact .throw fault

theorem keeps_ensureLive {γ : Type} {f : Recorder → γ} : Keeps f ensureLive :=
  .get_bind fun r => by split <;> rfl

theorem keeps_ensureSink {γ : Type} {f : Recorder → γ} : Keeps f ensureSink :=
  .get_bind fun r => by split <;> rfl

theorem keeps_underBarrier {x : Epoch → Action α} {γ : Type} {f : Recorder → γ}
    (hraise : ∀ r : Recorder, f (r.moveEpoch EpochController.raise) = f r)
    (hlower : ∀ r : Recorder, f (r.moveEpoch EpochController.lower) = f r)
    (hx : ∀ e, Keeps f (x e)) : Keeps f (underBarrier x) := by
  have hdown : Keeps f (modify fun r => r.moveEpoch EpochController.lower : Action PUnit) :=
    .update hlower
  refine .get_bind fun r => ?_
  exact (((hx r.epoch.current).attempt.bind fun answer =>
    hdown.bind fun _ => .settle answer) (r.moveEpoch EpochController.raise)).trans (hraise r)

theorem keeps_detachForWrite : Keeps discardless detachForWrite :=
  keeps_ensureLive.bind fun _ => keeps_ensureSink.bind fun _ =>
    keeps_underBarrier (fun _ => rfl) (fun _ => rfl) fun e => keeps_discardless (keeps_detach e)

theorem keeps_write : Keeps drainless write :=
  Keeps.bind (keeps_detachForWrite.coarser fun _ => rfl) fun d =>
    (keeps_emit d).coarser fun _ => rfl

theorem keeps_shiftUnderBarrier (e : Epoch) : Keeps shiftless (shiftUnderBarrier e) := by
  refine .get_bind fun r => ?_
  dsimp only
  split <;> rfl

theorem keeps_shift : Keeps shiftless shift :=
  keeps_ensureLive.bind fun _ =>
    keeps_underBarrier (fun _ => rfl) (fun _ => rfl) keeps_shiftUnderBarrier

theorem keeps_detachForRotation : Keeps retireless detachForRotation := by
  refine keeps_ensureLive.bind fun _ => keeps_ensureSink.bind fun _ =>
    (keeps_writeStaticsAndThreads.coarser fun _ => rfl).bind fun _ =>
      (keeps_underBarrier (fun _ => rfl) (fun _ => rfl) fun e => ?_).bind fun d => ?_
  · have htypes : Keeps retireless (writeTypeSet true) :=
      fun r => (congrArg retireless (writerless_writeTypeSet true r) :)
    exact htypes.bind fun _ => ((keeps_detach e).coarser fun _ => rfl).bind fun d =>
      ((keeps_shiftUnderBarrier e).coarser fun _ => rfl).bind fun _ => .pure d
  · exact Keeps.bind (.update fun _ => rfl) fun _ => Keeps.bind (.update fun _ => rfl) fun _ =>
      .pure d

theorem keeps_rotate : Keeps rotationless rotate :=
  Keeps.bind (keeps_detachForRotation.coarser fun _ => rfl) fun d =>
    (keeps_emit d).coarser fun _ => rfl

theorem keeps_detachAll : Keeps leaseless detachAll :=
  (keeps_onSpace _ _).bind fun _ => (keeps_onSpace _ _).bind fun _ =>
    Keeps.bind (fun _ => rfl) fun _ => (keeps_onSpace _ _).bind fun _ => .pure _

theorem keeps_discardParts (parts : List (BufferKind × List Buffer)) (discarded : Nat) :
    Keeps leaseless (discardParts parts discarded) := by
  induction parts generalizing discarded with
  | nil => exact .pure discarded
  | cons part rest ih => exact (keeps_reclaim _ _).bind fun _ => ih _

theorem keeps_clear : Keeps discardless clear :=
  (keeps_underBarrier (fun _ => rfl) (fun _ => rfl) fun _ => keeps_discardless keeps_detachAll).bind
    fun d => (keeps_discardless (keeps_discardParts d.parts 0)).bind fun _ =>
      Keeps.bind (.update fun _ => rfl) fun _ => .pure _

end Recorder

end TraceRecorder
