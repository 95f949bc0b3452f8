/-
# Waiting constants from their registration on

A constant waits from its registration until it is written, purged or discarded, and whatever waits
is told by the next operation that writes it (`Reachable.type_sets`).  What waits is a matter of
moves alone: most of them add at most the constants that they register (`typeSet_step`), and the
others take some away and bring none (`Sound.typeSet_step`).

So a constant that was purged is in no later checkpoint, while an equal one that is registered
afterwards waits like any other.
-/
import TraceRecorder.Proofs.Recorder.TypeSets
import TraceRecorder.Proofs.Run.Quiet
import TraceRecorder.Proofs.Run.Rotation

namespace TraceRecorder

open Fallible (Ends Keeps)

/-! ## 1. Moves -/

def Move.registered : Move → List PendingConstant
  | registerConstant c => [c]
  | _ => []

/-- **The move leaves waiting constants alone.** -/
def Move.retains : Move → Bool
  | writeTypeSet | rotate | clearTypeSet | purgeUnloading => false
  | _ => true

namespace Run

variable {options : RecorderOptions} {run : Run} {m : Move}

/-- **Such a move adds what it registers.** -/
theorem typeSet_step (run : Run) (hm : m.retains = true) :
    (run.step m).recorder.typeSet = run.recorder.typeSet ++ m.registered := by
  by_cases hreg : ∃ c, m = .registerConstant c
  · obtain ⟨c, rfl⟩ := hreg
    rfl
  have hnone : m.registered = [] := by
    cases m with
    | registerConstant c => exact absurd ⟨c, rfl⟩ hreg
    | _ => rfl
  rw [hnone, List.append_nil]
  cases hw : m.onlyWrites with
  | true =>
    have hwritten := run.writerless_step hw
    exact (congrArg Recorder.typeSet hwritten :)
  | false =>
    cases m with
    | write => exact view_perform (Recorder.keeps_write.coarser fun _ => rfl)
    | flushTypeSet => exact view_perform Recorder.keeps_typeSet_flushTypeSet
    | clear => exact view_perform (Recorder.keeps_clear.coarser fun _ => rfl)
    | shift => exact view_perform (Recorder.keeps_shift.coarser fun _ => rfl)
    | installSink sink =>
      obtain ⟨s, hs⟩ := run.recorder_installSink sink
      rw [hs]
    | replaceSink sink =>
      obtain ⟨s, hs⟩ := run.recorder_replaceSink sink
      rw [hs]
    | registerConstant c => exact absurd ⟨c, rfl⟩ hreg
    | registerStatic | changeStatic | changeHost | setClock | notifyThreads => rfl
    | writeTypeSet | rotate | clearTypeSet | purgeUnloading => cases hm
    | _ => cases hw

/-- **Any other move takes some away and brings none.** -/
theorem Sound.typeSet_step (h : run.Sound options) (m : Move) :
    (run.step m).recorder.typeSet.Sublist (run.recorder.typeSet ++ m.registered) := by
  cases hm : m.retains with
  | true =>
    rw [run.typeSet_step hm]
  | false =>
    have hnil : ([] : TypeSet).Sublist (run.recorder.typeSet ++ m.registered) :=
      List.nil_sublist _
    cases m with
    | writeTypeSet =>
      have htypes : (run.step .writeTypeSet).recorder.typeSet = [] :=
        Recorder.typeSet_writeTypeSet false run.recorder
      rw [htypes]
      exact hnil
    | clearTypeSet => exact hnil
    | purgeUnloading => exact List.filter_sublist.trans (List.sublist_append_left _ _)
    | rotate =>
      have htypes : (run.step .rotate).recorder.typeSet = run.recorder.typeSet ∨
          (run.step .rotate).recorder.typeSet = [] := h.recorder.typeSet_rotate
      rcases htypes with htypes | htypes
      · rw [htypes]
        exact List.sublist_append_left _ _
      · rw [htypes]
        exact hnil
    | _ => cases hm

/-- **What waits after some moves** waited before them or was registered since, in this order. -/
theorem Sound.typeSet_walk (h : run.Sound options) (moves : List Move) (hm : run.Admits moves) :
    (run.walk moves).recorder.typeSet.Sublist
      (run.recorder.typeSet ++ moves.flatMap Move.registered) := by
  induction moves generalizing run with
  | nil => exact List.sublist_append_left _ _
  | cons m rest ih =>
    have hrest := ih (h.step m hm.1).1 hm.2
    rw [List.flatMap_cons, ← List.append_assoc]
    exact hrest.trans ((h.typeSet_step m).append_right _)

/-- **If no move takes any away, all of that waits.** -/
theorem typeSet_walk (run : Run) (moves : List Move) (hm : ∀ m ∈ moves, m.retains = true) :
    (run.walk moves).recorder.typeSet = run.recorder.typeSet ++ moves.flatMap Move.registered := by
  induction moves generalizing run with
  | nil => exact (List.append_nil _).symm
  | cons m rest ih =>
    obtain ⟨hfirst, hrest⟩ := List.forall_mem_cons.1 hm
    rw [List.flatMap_cons, ← List.append_assoc, ← run.typeSet_step hfirst]
    exact ih (run.step m) hrest

/-! ## 2. Purges -/

/-- **What a purge takes away**, what it answers, and what waits after it. -/
structure Purges (run : Run) (answer : Nat) (run' : Run) : Prop where
  typeSet : run'.recorder.typeSet = run.recorder.typeSet.filter fun c =>
    !c.referent.any fun id => decide (id ∈ run.recorder.host.unloading)
  /-- The answer is how many were taken away. -/
  answered : answer = (run.recorder.typeSet.filter fun c =>
    c.referent.any fun id => decide (id ∈ run.recorder.host.unloading)).length
  counted : run'.recorder.stats.typeEntriesPurged =
    run.recorder.stats.typeEntriesPurged + answer
  /-- What is written later never is a constant that was taken away. -/
  later : ∀ moves, run'.Admits moves → (run'.walk moves).recorder.typeSet.Sublist
    (run'.recorder.typeSet ++ moves.flatMap Move.registered)
  /-- Equal ones that are registered later wait like any other. -/
  retained : ∀ moves, (∀ m ∈ moves, m.retains = true) → (run'.walk moves).recorder.typeSet =
    run'.recorder.typeSet ++ moves.flatMap Move.registered

/-- **A purge takes away what refers to classes that are about to be unloaded.** -/
theorem Sound.purges (h : run.Sound options) :
    run.Purges run.recorder.purgeUnloading.1 (run.step .purgeUnloading) where
  typeSet := by
    simp only [← TypeSet.refersTo_eq]
    rfl
  answered := by
    simp only [← TypeSet.refersTo_eq, ← List.countP_eq_length_filter]
    rfl
  counted := rfl
  later moves hm := Sound.typeSet_walk (h.step .purgeUnloading ⟨nofun, rfl⟩).1 moves hm
  retained moves hm := Run.typeSet_walk _ moves hm

/-! ## 3. Waiting constants -/

/-- **Waiting constants are told in full, once each.**  Written or rotated they are one checkpoint
of the global pool: for a reader one segment for each type that occurs, types ascending, in which
the constants of the type stand in the order of registration.  Then they wait no more, and a
rotation has them in the bytes that it appends to the chunk.  A flush appends the same and leaves
them waiting.  All this is so unless the checkpoint was dropped, which is counted.  A purge takes
away just the constants that refer to a class that is about to be unloaded, answers how many these
were and counts them; what is written later does not have them, but for equal ones that were
registered since. -/
theorem Reachable.type_sets (h : Reachable options run) (hm : options.Modest .global)
    (ha : run.recorder.aborted = false) (hs : ∀ relation ∈ run.recorder.rotationRelations,
      relation.encode.length ≤ Memory.addressable) :
    (Ends Recorder.writeTypeSet run.recorder fun answer r' =>
      (∃ n, answer = .ok n) ∧ ∃ es, run.recorder.LeavesTypeSet r' es) ∧
    (∀ s, run.writers = [] → run.recorder.sink = some s → s.Reliable →
      (Ends Recorder.rotate run.recorder fun answer r' => ∃ es, ∃ gained : Bytes,
        answer = .ok gained.length ∧ run.recorder.RetiresTypeSet r' es gained) ∧
      (Ends Recorder.flushTypeSet run.recorder fun answer r' => ∃ es, ∃ gained : Bytes,
        answer = .ok gained.length ∧ run.recorder.RepeatsTypeSet r' es gained)) ∧
    run.Purges run.recorder.purgeUnloading.1 (run.step .purgeUnloading) := by
  have hsound := h.sound
  have hr := hsound.recorder
  have hm : run.recorder.options.Modest .global := hsound.options ▸ hm
  have hstypes : ∀ relation ∈ run.recorder.typeSet.relations,
      relation.encode.length ≤ Memory.addressable := fun relation hr =>
    hs relation (List.mem_append_right _ (List.mem_append_right _ hr))
  refine ⟨hr.writeTypeSet_leaves ha hm hstypes, fun s hw hsink hreliable => ⟨?_, ?_⟩,
    hsound.purges⟩
  · rw [held_eq_nil hw] at hr
    exact hr.rotate_retires hsound.barrier ha hsink hreliable hm hs
  · exact hr.flushTypeSet_repeats hsound.barrier ha hsink hreliable hm hstypes

/-- Three constants of two types wait, and the class of the first one is about to be unloaded. -/
def waiting : Run := roomy.walk
  [.registerConstant ⟨200, 1, [7], some 9⟩, .registerConstant ⟨70, 2, [8], none⟩,
   .registerConstant ⟨200, 3, [9], none⟩, .changeHost (·.markUnloading [9])]

/-- The three constants are written in a rotation, or two of them remain after a purge. -/
theorem Reachable.type_sets_waiting :
    let run := waiting.step (.installSink {})
    (∃ es, run.recorder.typeSet.WrittenAs es ∧
      run.recorder.LeavesTypeSet (Fallible.runOn Recorder.writeTypeSet run.recorder).2 es) ∧
    (∃ es gained, run.recorder.typeSet.WrittenAs es ∧
      run.recorder.RetiresTypeSet (Fallible.runOn Recorder.rotate run.recorder).2 es gained) ∧
    run.recorder.purgeUnloading.1 = 1 ∧ (run.step .purgeUnloading).recorder.typeSet =
      [⟨70, 2, [8], none⟩, ⟨200, 3, [9], none⟩] := by
  intro run
  have h : Reachable roomyOptions run :=
    ((Reachable.create create_roomy).walk _ (by decide +kernel)).step _ (by decide +kernel)
  have hnone : waiting.recorder.sink = none := Option.isNone_iff_eq_none.1 (by decide +kernel)
  have hsink : run.recorder.sink = some {} := by
    simp [run, Run.step, Run.act, Run.perform, Recorder.installSink, hnone]
  have hm : roomyOptions.Modest .global := by decide
  obtain ⟨⟨-, es, hleaves⟩, hdrains, hpurges⟩ :=
    h.type_sets hm (by decide +kernel) (by decide +kernel)
  obtain ⟨⟨es', gained, -, hretires⟩, -⟩ :=
    hdrains {} (by decide +kernel) hsink ⟨fun _ => rfl, fun _ => rfl⟩
  obtain ⟨n, r₁, hrun, hwhole⟩ := hretires.whole
  have hkept : (Fallible.runOn Recorder.rotate run.recorder).2.stats.checkpointsDropped =
      (Fallible.runOn Recorder.writeStaticsAndThreads run.recorder).2.stats.checkpointsDropped := by
    decide +kernel
  rw [hrun] at hkept
  exact ⟨⟨es, (hleaves.counted (by decide +kernel)).1, hleaves⟩,
    ⟨es', gained, hwhole hkept, hretires⟩, hpurges.answered.trans (by decide +kernel),
    hpurges.typeSet.trans (by decide +kernel)⟩

end Run

end TraceRecorder
