/-
# Waiting constants that are lost

Two operations take the waiting constants out of the type set, `writeTypeSet` and a rotation, and
both do so before the checkpoint of them begins.  Whether that checkpoint is written or dropped,
nothing waits afterwards (`Spends`).  If it is dropped, the constants of the types that it had not
cut off yet are neither waiting nor published, and no later checkpoint has them, but for equal ones
that are registered since.  `flushTypeSet` writes a copy, and there all of them still wait.

What is lost is stated for every reason to drop a checkpoint at once: that is one which publishes no
last entry.  There is no buffer for it, at its begin or on the way, or the recorder was aborted.
-/
import TraceRecorder.Proofs.Recorder.Losses
import TraceRecorder.Proofs.Run.TypeSets

namespace TraceRecorder

namespace Run

variable {options : RecorderOptions} {run run' : Run}

/-- **The waiting constants are spent**: some entries were published of them, and nothing waits but
what is registered later. -/
structure Spends (run run' : Run) (p : Published) : Prop extends
    run.recorder.typeSet.SpentOn p where
  typeSet : run'.recorder.typeSet = []
  later : ∀ moves, run'.Admits moves →
    (run'.walk moves).recorder.typeSet.Sublist (moves.flatMap Move.registered)

theorem Sound.spends (h : run'.Sound options) {p : Published}
    (hs : run.recorder.typeSet.SpentOn p) (hnone : run'.recorder.typeSet = []) :
    run.Spends run' p where
  toSpentOn := hs
  typeSet := hnone
  later moves hm := by
    have hlater := h.typeSet_walk moves hm
    rwa [hnone, List.nil_append] at hlater

theorem admitted_writeTypeSet {n : Nat}
    (h : (Fallible.runOn Recorder.writeTypeSet run.recorder).1 = .ok n) :
    Move.writeTypeSet.admitted run := by
  have hfault : run.fault? .writeTypeSet = none := by
    simp [fault?, act, perform, h, faultOf]
  refine ⟨fun hd => (by cases hd), ?_⟩
  rw [Move.granted, hfault]
  rfl

/-- **A dropped checkpoint of waiting constants loses some of them.**  They are taken out of the
type set in any case.  If the checkpoint has a last entry its entries tell all of them; otherwise
they tell the first types only, and constants of the other types are neither there nor do they wait.
Nothing later brings them back.  That the checkpoint was dropped is counted, unless the recorder was
aborted, but it is no fault, and the answer is 0.  A rotation spends the waiting constants behind
its other tables, unless it is refused before.  A flush leaves them waiting. -/
theorem Reachable.losses (h : Reachable options run) (hm : options.Modest .global)
    (hs : ∀ relation ∈ run.recorder.typeSet.relations, relation.encode.length ≤ Memory.addressable)
    (hw : run.recorder.typeSet ≠ []) :
    (run.Spends (run.step .writeTypeSet) (Move.writeTypeSet.ledger run).published ∧
      ∃ n, (Fallible.runOn Recorder.writeTypeSet run.recorder).1 = .ok n ∧
        ((Move.writeTypeSet.ledger run).published.last = [] → n = 0 ∧
          (run.recorder.aborted = true ∨
            run.recorder.Counts (run.step .writeTypeSet).recorder 0 1))) ∧
    (Move.rotate.admitted run → (run.step .rotate).recorder.typeSet = run.recorder.typeSet ∨
      ∃ p, (Move.rotate.ledger run).published = run.recorder.staticAndThreadEntries ++ p ∧
        run.Spends (run.step .rotate) p) ∧
    (run.step .flushTypeSet).recorder.typeSet = run.recorder.typeSet := by
  have hsound := h.sound
  have hr := hsound.recorder
  have hm : run.recorder.options.Modest .global := hsound.options ▸ hm
  have hflush : (run.step .flushTypeSet).recorder.typeSet = run.recorder.typeSet ++ [] :=
    run.typeSet_step rfl
  refine ⟨?_, fun hrotate => ?_, hflush.trans (List.append_nil _)⟩
  · obtain ⟨n, hanswer, hdropped⟩ := hr.writeTypeSet_answers hm hs hw
    have hspent := hr.typeSetEntries_spent hm false rfl hw
    have hnone := Recorder.typeSet_writeTypeSet false run.recorder
    have hstep := hsound.step _ (admitted_writeTypeSet hanswer)
    exact ⟨hstep.1.spends hspent hnone, n, hanswer, hdropped⟩
  · have hstep := (hsound.step _ hrotate).1
    rcases hr.rotate_spends hm hw with hkept | ⟨hnone, p, hentries, hspent⟩
    · exact .inl hkept
    · exact .inr ⟨p, hentries, hstep.spends hspent hnone⟩

/-- Constants of two types wait, and one buffer is left for them, which has room for those of the
first type. -/
def pressed : Run := small.walk
  [.registerConstant ⟨64, 7, [1, 2, 3, 4], none⟩, .registerConstant ⟨70, 8, [5], none⟩,
   .start 1 .global]

/-- The constant of the first type is published, and the other one is lost. -/
theorem Reachable.losses_pressed :
    let p := (Move.writeTypeSet.ledger pressed).published
    pressed.Spends (pressed.step .writeTypeSet) p ∧ p.entries.length = 1 ∧
      pressed.recorder.typeSet.CutShort p.entries ∧
      pressed.recorder.typeSet.leftOut p.entries = [⟨70, 8, [5], none⟩] ∧
      (Fallible.runOn Recorder.writeTypeSet pressed.recorder).1 = .ok 0 ∧
      pressed.recorder.Counts (pressed.step .writeTypeSet).recorder 0 1 := by
  intro p
  have h : Reachable smallOptions pressed :=
    (Reachable.create create_small).walk _ (by decide +kernel)
  have hlast : p.last = [] := by decide +kernel
  obtain ⟨hspends, n, hanswer, hdropped⟩ :=
    (h.losses (by decide) (by decide +kernel) (by decide +kernel)).1
  obtain ⟨rfl, hcounts⟩ := hdropped hlast
  exact ⟨hspends, by decide +kernel, hspends.dropped hlast, by decide +kernel, hanswer,
    hcounts.resolve_left (by decide +kernel)⟩

/-- **A constant that waited need neither wait nor be published** after it was to be written. -/
theorem losses_not_kept :
    ¬ ∀ (options : RecorderOptions) (run : Run), Reachable options run →
      ∀ c ∈ run.recorder.typeSet, c ∈ (run.step .writeTypeSet).recorder.typeSet ∨
        c.ToldIn (Move.writeTypeSet.ledger run).published.entries := by
  intro h
  have hpressed : Reachable smallOptions pressed :=
    (Reachable.create create_small).walk _ (by decide +kernel)
  have hkept := h _ _ hpressed ⟨70, 8, [5], none⟩ (by decide +kernel)
  exact absurd hkept (by decide +kernel)

end Run

end TraceRecorder
