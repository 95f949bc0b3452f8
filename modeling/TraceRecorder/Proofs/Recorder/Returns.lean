/-
# Drains whose sink refuses a call

A drain goes on when its sink refuses a call: nothing more is appended, but all that it detached
still comes back to the pools.  What it took out of them before is known, too, and does not depend
on the sink.

* `Collects.written`: a drain counts just the bytes that its sink took;
* `Sound.detachForRotation_answers`: the first half of a rotation meets no fault;
* `Sound.detachForRotation_retires`: what it detaches, and what it has done to the epoch by then.
-/
import TraceRecorder.Proofs.Recorder.Completion
import TraceRecorder.Proofs.Recorder.Passes
import TraceRecorder.Proofs.Recorder.Tallies

namespace TraceRecorder

open Fallible (Ends Keeps)

namespace Recorder

variable {r : Recorder} {out : List Buffer} {e : Epoch}

/-! ## 1. Bytes that are counted -/

def written (r : Recorder) : Nat := r.stats.bytesWritten

theorem keeps_written {α : Type} {x : Action α} (h : Keeps writerless x) : Keeps written x :=
  h.coarser fun _ => rfl

theorem keeps_written_detachForWrite : Keeps written Recorder.detachForWrite :=
  keeps_detachForWrite.coarser fun _ => rfl

theorem keeps_written_detachForFlush : Keeps written Recorder.detachForFlush := by
  refine .get_bind fun r => ?_
  exact ((keeps_written (keeps_writeRelations recorderThread .global false _)).bind fun _ =>
    keeps_written_detachForWrite) r

theorem keeps_written_shift : Keeps written Recorder.shift := keeps_shift.coarser fun _ => rfl

theorem keeps_written_detachForRotation : Keeps written Recorder.detachForRotation :=
  keeps_detachForRotation.coarser fun _ => rfl

/-- **A drain counts just the bytes that its sink took.** -/
theorem Collects.written {first : Action Detached} {emissions : List Emission}
    (h : Collects first emissions r out e) (hkept : Keeps Recorder.written first) :
    Ends (do let d ← first; Recorder.emit d) r fun _ r' =>
      r'.stats.bytesWritten = r.stats.bytesWritten + (r.sent first).length := by
  rcases hrun : Fallible.runOn first r with ⟨fault | d, r₁⟩
  · refine Ends.stop hrun ?_
    rw [sent, hrun]
    exact (hkept.ends r).run_eq hrun
  · obtain ⟨⟨s, hs⟩, hk, hs₁, -⟩ := (h.run_eq hrun).resolve_left (not_refused_ok _)
    refine Ends.after hrun ((hs₁.husks.emit hk hs).mono ?_)
    rintro answer r' ⟨-, -, -, hwritten, -⟩
    have hsame : r₁.stats.bytesWritten = r.stats.bytesWritten := (hkept.ends r).run_eq hrun
    rw [hwritten, hsame, (s.delivers d.buffers).written, usedBytes_eq_length, sent, hrun]
    simp [hs, sentOf, Sink.share]

/-! ## 2. Before the sink is used -/

/-- The static constants and the threads meet no fault. -/
theorem Sound.writeStaticsAndThreads_answers (h : r.Sound out r.epoch.current)
    (ha : r.aborted = false) (hs : ∀ relation ∈ r.statics ++ ThreadInfo.table r.host.liveThreads,
      relation.encode.length ≤ Memory.addressable) :
    Ends Recorder.writeStaticsAndThreads r fun answer _ =>
      Refused answer ∨ ∃ n, answer = .ok n := by
  have hstatics : Ends (Recorder.writeStatics recorderThread) r _ :=
    Ends.after (Fallible.runOn_get r)
      ((h.writeRelations recorderThread .global false rfl r.statics).and
        (h.writeRelations_answers ha recorderThread .global false rfl
          fun relation hr => hs relation (List.mem_append_left _ hr)))
  unfold Recorder.writeStaticsAndThreads
  refine hstatics.bind ?_ ?_
  · rintro n r₁ ⟨ht, -⟩
    have ht := ht.resolve_left (not_refused_ok n)
    have hhost : r₁.host = r.host := (congrArg Recorder.host ht.surroundings :)
    have hepoch : r₁.epoch = r.epoch := ht.epoch
    have hthreads : Ends (Recorder.writeThreads recorderThread) r₁ _ :=
      Ends.after (Fallible.runOn_get r₁) (ht.sound.writeRelations_answers
        ((aborted_eq_of_surroundings_eq ht.surroundings).trans ha) recorderThread .global false
        (by rw [← hepoch]; rfl)
        fun relation hr => hs relation (List.mem_append_right _ (hhost ▸ hr)))
    refine hthreads.bind ?_ ?_
    · intro m r₂ _
      exact Ends.of_run (Fallible.runOn_pure _ _) (.inr ⟨n + m, rfl⟩)
    · intro fault r₂ hpost
      exact .inl (.of_fault hpost)
  · rintro fault r₁ ⟨-, hpost⟩
    exact .inl (.of_fault hpost)

theorem Trades.retireTypeSet_answers {r₁ : Recorder} {p : Published}
    (h : Trades r out r₁ out r.epoch.current p) (ha : r.aborted = false)
    (hs : ∀ relation ∈ r.typeSet.relations, relation.encode.length ≤ Memory.addressable) :
    Ends (Recorder.writeTypeSet true) (r₁.moveEpoch EpochController.raise) fun answer _ =>
      Refused answer ∨ ∃ n, answer = .ok n := by
  have ha₁ : r₁.aborted = false := (aborted_eq_of_surroundings_eq h.surroundings).trans ha
  have htypes : r₁.typeSet = r.typeSet := (congrArg Recorder.typeSet h.surroundings :)
  rw [← htypes] at hs
  have hraised := h.sound.moveEpoch EpochController.raise
  have hwritten := hraised.withoutTypeSet.writeRelations_answers ha₁ recorderThread .global true
    (runOn_leaseEpoch_raise h.epoch) hs
  exact Ends.after (Fallible.runOn_get _) (Ends.after (Fallible.runOn_set _ _) hwritten)

/-- **The first half of a rotation meets no fault**, unless memory is refused. -/
theorem Sound.detachForRotation_answers (h : r.Sound out r.epoch.current) (ha : r.aborted = false)
    (hsink : r.sink.isSome = true)
    (hs : ∀ relation ∈ r.rotationRelations, relation.encode.length ≤ Memory.addressable) :
    Ends Recorder.detachForRotation r fun answer _ => Refused answer ∨ ∃ d, answer = .ok d := by
  refine h.firstHalf.mono ?_
  rintro answer r' hcase
  cases hcase with
  | refused hno =>
    rcases hno with hno | hno
    · rw [ha] at hno
      cases hno
    · rw [hno] at hsink
      cases hsink
  | tables hready hrun =>
    have hanswers := h.writeStaticsAndThreads_answers ha fun relation hr => hs relation (by
      rw [rotationRelations, ← List.append_assoc]
      exact List.mem_append_left _ hr)
    exact .inl (.of_fault (hanswers.run_eq hrun))
  | types hready hrun ht hlast =>
    have hanswers := ht.retireTypeSet_answers ha fun relation hr =>
      hs relation (List.mem_append_right _ (List.mem_append_right _ hr))
    exact .inl (.of_fault (hanswers.run_eq hlast))
  | detached => exact .inr ⟨_, rfl⟩

/-- **The recorder from which a rotation detaches**: its three checkpoints are written, and the
barrier is up. -/
def retiring (r : Recorder) : Recorder :=
  (Fallible.runOn (writeTypeSet true)
    ((Fallible.runOn writeStaticsAndThreads r).2.moveEpoch EpochController.raise)).2

/-- **What the first half of a rotation has done**, before the sink is used: it has detached what
was pooled by then, flipped the epoch, and told and counted that. -/
structure Retires (r : Recorder) (d : Detached) (r' : Recorder) : Prop where
  detached : laden d.buffers = laden r.retiring.pooled
  epoch : r'.epoch = r.epoch.shifted
  rotations : r'.stats.rotations = r.stats.rotations + 1
  notifier : r'.notifier = r.notifier.post r.epoch.shifted.current

theorem Sound.detachForRotation_retires (h : r.Sound out r.epoch.current)
    (hb : r.epoch.barrier = none) :
    Ends Recorder.detachForRotation r fun answer r' => ∀ d, answer = .ok d →
      r.retiring.Sound out r.epoch.current ∧ r.Retires d r' := by
  refine h.firstHalf.mono ?_
  rintro answer r' hcase d rfl
  cases hcase with
  | @detached n m d r₁ r₂ r₃ hready hrun ht hrun' ht' hdetach =>
    obtain ⟨_, ⟨⟩, -, hladen, -, ht₃⟩ := ht'.sound.detach.run_eq hdetach
    have hretiring : r.retiring = r₂ := by
      rw [retiring, hrun, hrun']
    have hrotations : r₃.stats.rotations = r.stats.rotations := by
      have h₁ := (keeps_writeStaticsAndThreads.ends r).run_eq hrun
      have h₂ := writerless_writeTypeSet true (r₁.moveEpoch EpochController.raise)
      have h₃ := ((keeps_detach r.epoch.current).ends r₂).run_eq hdetach
      rw [hrun'] at h₂
      have h₁ : r₁.stats.rotations = r.stats.rotations :=
        (congrArg (fun r => r.stats.rotations) h₁ :)
      have h₂ : r₂.stats.rotations = r₁.stats.rotations :=
        (congrArg (fun r => r.stats.rotations) h₂ :)
      have h₃ : r₃.stats.rotations = r₂.stats.rotations :=
        (congrArg (fun r => r.stats.rotations) h₃ :)
      rw [h₃, h₂, h₁]
    have hepoch : r₃.epoch.flip.lower = r.epoch.shifted := by
      have h₁ : r₁.epoch = r.epoch := ht.epoch
      have h₂ : r₂.epoch = r₁.epoch.raise := ht'.epoch
      have h₃ : r₃.epoch = r₂.epoch := ht₃.epoch
      rw [h₃, h₂, h₁, EpochController.lower_flip_raise hb]
    have hnotifier : r₃.notifier = r.notifier := by
      have h₁ : r₁.notifier = r.notifier := (congrArg Recorder.notifier ht.surroundings :)
      have h₂ : r₂.notifier = r₁.notifier := (congrArg Recorder.notifier ht'.surroundings :)
      have h₃ : r₃.notifier = r₂.notifier := (congrArg Recorder.notifier ht₃.surroundings :)
      rw [h₃, h₂, h₁]
    refine ⟨hretiring ▸ ht'.sound, ?_, hepoch, ?_, ?_⟩
    · rw [hretiring, hladen]
    · exact congrArg (· + 1) hrotations
    · show r₃.notifier.post r₃.epoch.flip.lower.current = _
      rw [hnotifier, hepoch]

end Recorder

end TraceRecorder
