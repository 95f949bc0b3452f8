/-
# Epoch violations are exact and final

An epoch may only be retired when nothing of it is left to drain.  A shift that finds committed
bytes in a full or bound buffer is a violation: it marks the recorder as aborted and does nothing
else (`Sound.shift_violates`).  A shift that finds none flips the epoch and does nothing else.

From a violation on the recorder is shut (`Recorder.Shut`), and `Halted` says what any moves after
it leave as it was.  Writers that are open on an aborted recorder are all gone, since a shift waits
for the others; so `Sound.halted_step` has no writer to reckon with, and a run of moves is an
induction.
-/
import TraceRecorder.Proofs.Run.Ownership
import TraceRecorder.Proofs.Run.Quiet

namespace TraceRecorder

open Fallible (Ends)

namespace Recorder

variable {r : Recorder} {out : List Buffer} {e : Epoch}

/-! ## 1. Shifts -/

/-- **Some full or bound buffer holds committed bytes.** -/
def Undrained (r : Recorder) : Prop :=
  ∃ kind b, (b ∈ (r.space kind).full ∨ ∃ thread, (r.space kind).bound? thread = some b) ∧
    b.used ≠ 0

/-- What is full or bound is what is pooled. -/
theorem Sound.undrained_iff (h : r.Sound out e) :
    r.Undrained ↔ ¬ ∀ b ∈ r.pooled, b.isEmpty = true := by
  have hplace : ∀ kind b, b ∈ (r.space kind).pooled ↔
      b ∈ (r.space kind).full ∨ ∃ thread, (r.space kind).bound? thread = some b := by
    intro kind b
    simp only [Space.pooled, List.mem_append, List.mem_reverse, Space.mem_boundBuffers,
      (h.pool kind).bound?_iff]
  have hempty : ∀ b : Buffer, b.isEmpty = true ↔ b.used = 0 := by
    intro b
    simp [Buffer.isEmpty]
  simp only [not_forall, hempty]
  constructor
  · rintro ⟨kind, b, hb, hused⟩
    refine ⟨b, List.mem_flatMap.2 ⟨kind, ?_, (hplace kind b).2 hb⟩, hused⟩
    cases kind <;> decide
  · rintro ⟨b, hb, hused⟩
    obtain ⟨kind, -, hb⟩ := List.mem_flatMap.1 hb
    exact ⟨kind, b, (hplace kind b).1 hb, hused⟩

/-- An answer that tells of an epoch violation. -/
def Violates {α : Type} (answer : Except Fault α) : Prop :=
  ∃ fault, answer = .error fault ∧ fault.report.kind = .epochViolation

/-- **A shift that finds something undrained** aborts the recorder and changes nothing else. -/
theorem Sound.shift_violates (h : r.Sound out r.epoch.current) (hb : r.epoch.barrier = none)
    (ha : r.aborted = false) (hu : r.Undrained) :
    Fallible.runOn Recorder.shift r =
      (.error (.recorder (.undrained (r.undrained r.epoch.current) r.epoch.current)),
        { r with aborted := true }) := by
  have hsome := h.undrained_iff.1 hu
  rcases h.shift hb with ⟨ha', -, -⟩ | ⟨-, hempty, -, -⟩ | ⟨-, -, hanswer, hstate⟩
  · rw [ha] at ha'
    cases ha'
  · exact absurd hempty hsome
  · exact Prod.ext hanswer hstate

/-- **A shift that finds nothing undrained** flips the epoch once and changes nothing else. -/
theorem Sound.shift_flips (h : r.Sound out r.epoch.current) (hb : r.epoch.barrier = none)
    (ha : r.aborted = false) (hu : ¬ r.Undrained) :
    Fallible.runOn Recorder.shift r =
      (.ok r.epoch.current.other, r.moveEpoch EpochController.shifted) := by
  rcases h.shift hb with ⟨ha', -, -⟩ | ⟨-, -, hanswer, hstate⟩ | ⟨-, hsome, -, -⟩
  · rw [ha] at ha'
    cases ha'
  · exact Prod.ext hanswer hstate
  · exact absurd (h.undrained_iff.2 hsome) hu

/-! ## 2. What an aborted recorder does -/

/-- **A recorder that is shut.**  All drains and shifts tell of the violation and change nothing, a
new writer is gone and ends with nothing, and what is pooled can still be discarded. -/
structure Shut (r : Recorder) : Prop where
  write : Violates (Fallible.runOn write r).1 ∧ (Fallible.runOn write r).2 = r
  shift : Violates (Fallible.runOn shift r).1 ∧ (Fallible.runOn shift r).2 = r
  rotate : Violates (Fallible.runOn rotate r).1 ∧ (Fallible.runOn rotate r).2 = r
  flushTypeSet : Violates (Fallible.runOn flushTypeSet r).1 ∧ (Fallible.runOn flushTypeSet r).2 = r
  start : ∀ thread kind, ∃ w r', Fallible.runOn (Writer.start thread kind false) r = (.ok w, r') ∧
    w.Gone ∧ ∀ r'', (Fallible.runOn w.finish r'').1 = .ok 0
  clear : (Fallible.runOn clear r).1 = .ok (usedBytes r.pooled) ∧
    (Fallible.runOn clear r).2.pooled = []

/-- **An aborted recorder is shut.** -/
theorem Sound.shut (h : r.Sound out r.epoch.current) (hb : r.epoch.barrier = none)
    (ha : r.aborted = true) : r.Shut := by
  have hviolates : Violates (.error (.recorder .aborted) : Except Fault Nat) := ⟨_, rfl, rfl⟩
  obtain ⟨hanswer, -, hpooled, -⟩ := h.clear hb
  constructor
  · rw [runOn_write_of_aborted ha]
    exact ⟨hviolates, rfl⟩
  · rw [runOn_shift_of_aborted ha]
    exact ⟨⟨_, rfl, rfl⟩, rfl⟩
  · rw [runOn_rotate_of_aborted ha]
    exact ⟨hviolates, rfl⟩
  · rw [runOn_flushTypeSet_of_aborted ha]
    exact ⟨hviolates, rfl⟩
  · intro thread kind
    refine ⟨_, _, Writer.runOn_start_of_aborted ha thread kind, Writer.gone_gone _, fun r'' => ?_⟩
    rw [(Writer.gone_gone _).runOn_finish]
  · exact ⟨hanswer, hpooled⟩

end Recorder

namespace Run

variable {options : RecorderOptions} {run run' run'' : Run} {brought brought' : List Sink}

/-! ## 3. Moves after an abort -/

/-- **What moves after an abort leave as it was.**  The mark stays, as does the epoch; every open
writer is gone; no entry joins those that are held; and the sinks have the bytes that they had,
those that were `brought` meanwhile the bytes that they came with. -/
structure Halted (run run' : Run) (brought : List Sink) : Prop where
  aborted : run'.recorder.aborted = true
  current : run'.recorder.epoch.current = run.recorder.epoch.current
  shifts : run'.recorder.epoch.shifts = run.recorder.epoch.shifts
  writers : ∀ w ∈ run'.writers, w.Gone ∧ ∀ r, (Fallible.runOn w.finish r).1 = .ok 0
  entries : ∀ x, run'.entries.count x ≤ run.entries.count x
  cut : run'.recorder.stats.flushes = run.recorder.stats.flushes
  last : run'.recorder.stats.checkpointsWritten = run.recorder.stats.checkpointsWritten
  bytesWritten : run'.recorder.stats.bytesWritten = run.recorder.stats.bytesWritten
  contents : run'.sinks.map Sink.content = (run.sinks ++ brought).map Sink.content

/-- **First some moves, then others.** -/
theorem Halted.trans (h : run.Halted run' brought) (h' : run'.Halted run'' brought') :
    run.Halted run'' (brought ++ brought') where
  aborted := h'.aborted
  current := h'.current.trans h.current
  shifts := h'.shifts.trans h.shifts
  writers := h'.writers
  entries x := Nat.le_trans (h'.entries x) (h.entries x)
  cut := h'.cut.trans h.cut
  last := h'.last.trans h.last
  bytesWritten := h'.bytesWritten.trans h.bytesWritten
  contents := by
    rw [h'.contents, List.map_append, h.contents, ← List.map_append, List.append_assoc]

/-- **An aborted run in which all open writers are gone.** -/
structure Stopped (run : Run) : Prop where
  aborted : run.recorder.aborted = true
  writers : ∀ w ∈ run.writers, w.Gone

theorem Stopped.halted (hr : run.Stopped) : run.Halted run [] where
  aborted := hr.aborted
  current := rfl
  shifts := rfl
  writers w hw := ⟨hr.writers w hw, fun r => by rw [(hr.writers w hw).runOn_finish]⟩
  entries _ := Nat.le_refl _
  cut := rfl
  last := rfl
  bytesWritten := rfl
  contents := by rw [List.append_nil]

/-- A move finds open writers that are gone, and leaves none that is not. -/
theorem Stopped.writers_step (hr : run.Stopped) (m : Move) :
    ∀ w ∈ (run.step m).writers, w.Gone := by
  have herase : ∀ writer, ∀ w ∈ run.writers.eraseIdx writer, w.Gone :=
    fun writer w hw => hr.writers w (List.mem_of_mem_eraseIdx hw)
  cases m with
  | start thread kind =>
    show ∀ w ∈ (run.start thread kind).2.writers, w.Gone
    rw [Run.start, Writer.runOn_start_of_aborted hr.aborted]
    intro w hw
    rcases List.mem_append.1 hw with hw | hw
    · exact hr.writers w hw
    · rw [List.mem_singleton.1 hw]
      exact Writer.gone_gone _
  | append writer segment =>
    show ∀ w ∈ (run.append writer segment).2.writers, w.Gone
    unfold Run.append
    cases hw : run.writers[writer]? with
    | none => exact hr.writers
    | some w =>
      have hgone := hr.writers w (List.mem_of_getElem? hw)
      dsimp only
      rw [hgone.runOn_append]
      intro w' hw'
      rcases List.mem_or_eq_of_mem_set hw' with hw' | rfl
      · exact hr.writers w' hw'
      · exact hgone
  | finish writer =>
    show ∀ w ∈ (run.close writer Writer.finish).2.writers, w.Gone
    unfold Run.close
    cases run.writers[writer]? with
    | none => exact hr.writers
    | some w => exact herase writer
  | abandon writer =>
    show ∀ w ∈ (run.close writer Writer.abandon).2.writers, w.Gone
    unfold Run.close
    cases run.writers[writer]? with
    | none => exact hr.writers
    | some w => exact herase writer
  | replaceSink sink =>
    show ∀ w ∈ (run.replaceSink sink).2.writers, w.Gone
    unfold Run.replaceSink
    rcases Fallible.runOn (Recorder.replaceSink sink) run.recorder with ⟨_ | _, r⟩ <;>
      exact hr.writers
  | _ => exact hr.writers

/-- **Nothing is published.** -/
theorem Stopped.published (hr : run.Stopped) (m : Move) : (m.ledger run).published = {} := by
  have ha := hr.aborted
  have hnone : ∀ {f : Writer → Option Bytes} (writer : Nat), (∀ w, w.Gone → f w = none) →
      (run.writers[writer]?.bind f).toList = [] := by
    intro f writer hf
    cases hw : run.writers[writer]? with
    | none => rfl
    | some w =>
      rw [Option.bind_some, hf w (hr.writers w (List.mem_of_getElem? hw))]
      rfl
  have hrows : ∀ thread kind relations,
      run.recorder.relationEntries thread kind false relations = {} :=
    Recorder.relationEntries_of_aborted ha
  cases m with
  | append writer segment =>
    simp only [Move.ledger, hnone writer fun w hw => hw.cutOff?_eq segment run.recorder.clock]
  | finish writer =>
    simp only [Move.ledger, hnone writer fun w hw => hw.lastPiece?_eq run.recorder.clock]
  | writeStatics thread => exact hrows thread .global run.recorder.statics
  | writeThreads thread => exact hrows thread .global _
  | writeStaticsAndThreads =>
    simp [Move.ledger, Recorder.staticAndThreadEntries, Recorder.staticEntries,
      Recorder.threadEntries, Recorder.runOn_writeStatics_of_aborted ha, hrows]
  | writeTypeSet =>
    have hcleared : ({ run.recorder with typeSet := [] } : Recorder).aborted = true := ha
    exact Recorder.relationEntries_of_aborted hcleared recorderThread .global _
  | writeCheckpoint thread id mounted =>
    cases mounted <;> simp [Move.ledger, Recorder.checkpointEntries, hrows]
  | writeSimplified id => simp [Move.ledger, hrows]
  | flushTypeSet => exact hrows recorderThread .global _
  | rotate => exact Recorder.rotationEntries_of_refused (.inl ha)
  | _ => rfl

theorem Stopped.step_refused (hr : run.Stopped) {m : Move}
    (hm : m = .write ∨ m = .flushTypeSet ∨ m = .shift ∨ m = .rotate) : run.step m = run := by
  have ha := hr.aborted
  rcases hm with rfl | rfl | rfl | rfl
  · simp [Run.step, Run.act, Run.perform, Recorder.runOn_write_of_aborted ha]
  · simp [Run.step, Run.act, Run.perform, Recorder.runOn_flushTypeSet_of_aborted ha]
  · simp [Run.step, Run.act, Run.perform, Recorder.runOn_shift_of_aborted ha]
  · simp [Run.step, Run.act, Run.perform, Recorder.runOn_rotate_of_aborted ha]

/-- A move that is not refused keeps the epoch, the count of written bytes and the bytes of all
sinks. -/
theorem kept_step (run : Run) {m : Move}
    (hm : ¬ (m = .write ∨ m = .flushTypeSet ∨ m = .shift ∨ m = .rotate)) :
    (run.step m).recorder.epoch.current = run.recorder.epoch.current ∧
      (run.step m).recorder.epoch.shifts = run.recorder.epoch.shifts ∧
      (run.step m).recorder.stats.bytesWritten = run.recorder.stats.bytesWritten ∧
      (run.step m).sinks.map Sink.content = (run.sinks ++ m.brings run).map Sink.content := by
  cases hq : m.quiet with
  | true =>
    have hquiet := run.quietless_step hq
    have hnone : m.brings run = [] := by
      cases m <;> first | rfl | cases hq
    refine ⟨Recorder.current_eq_of_quietless_eq hquiet, Recorder.shifts_eq_of_quietless_eq hquiet,
      Recorder.bytesWritten_eq_of_quietless_eq hquiet, ?_⟩
    rw [run.sinks_step hq, hnone, List.append_nil]
  | false =>
    cases m with
    | clear =>
      have hkept : (run.step .clear).recorder.discardless = run.recorder.discardless :=
        Recorder.keeps_clear run.recorder
      refine ⟨(congrArg (·.epoch.current) hkept :), (congrArg (·.epoch.shifts) hkept :),
        (congrArg (·.stats.bytesWritten) hkept :), ?_⟩
      have hsink : (run.step .clear).recorder.sink = run.recorder.sink :=
        (congrArg (·.sink) hkept :)
      rw [sinks, hsink, finished_step fun _ => Move.noConfusion]
      exact congrArg _ (List.append_nil _).symm
    | installSink sink =>
      obtain ⟨s, hs⟩ := run.recorder_installSink sink
      refine ⟨?_, ?_, ?_, run.contents_installSink sink⟩ <;> rw [hs]
    | replaceSink sink =>
      obtain ⟨s, hs⟩ := run.recorder_replaceSink sink
      refine ⟨?_, ?_, ?_, run.contents_replaceSink sink⟩ <;> rw [hs]
    | write | flushTypeSet | shift | rotate => simp at hm
    | _ => cases hq

/-- **One move after an abort.** -/
theorem Stopped.halted_step (hr : run.Stopped) (h : run.Sound options) {m : Move}
    (hm : m.admitted run) : run.Halted (run.step m) (m.brings run) := by
  by_cases hrefused : m = .write ∨ m = .flushTypeSet ∨ m = .shift ∨ m = .rotate
  · rw [hr.step_refused hrefused]
    rcases hrefused with rfl | rfl | rfl | rfl <;> exact hr.halted
  have hsettles := (h.step m hm).2
  have hpublished := hr.published m
  obtain ⟨hcurrent, hshifts, hwritten, hcontents⟩ := run.kept_step hrefused
  refine ⟨h.aborted_step m hr.aborted, hcurrent, hshifts, ?_, ?_, ?_, ?_, hwritten, hcontents⟩
  · intro w hw
    have hgone := hr.writers_step m w hw
    exact ⟨hgone, fun r => by rw [hgone.runOn_finish]⟩
  · intro x
    have hx := hsettles.entries x
    rw [hpublished] at hx
    have hnone : (Published.entries {}).count x = 0 := rfl
    omega
  · rw [hsettles.cut, hpublished]
    rfl
  · rw [hsettles.last, hpublished]
    rfl

/-- **Any moves after an abort.** -/
theorem Stopped.halted_walk (hr : run.Stopped) (h : run.Sound options) (moves : List Move)
    (hm : run.Admits moves) : run.Halted (run.walk moves) (run.brings moves) := by
  induction moves generalizing run with
  | nil => exact hr.halted
  | cons m rest ih =>
    have hstep := hr.halted_step h hm.1
    have hr' : (run.step m).Stopped := ⟨hstep.aborted, hr.writers_step m⟩
    exact hstep.trans (ih hr' (h.step m hm.1).1 hm.2)

/-- **In an aborted run all open writers are gone.**  A shift is what aborts a recorder, and no
writer is open then; those that begin later are gone from the beginning. -/
theorem Reachable.stopped (h : Reachable options run) (ha : run.recorder.aborted = true) :
    run.Stopped := by
  induction h with
  | create h => exact ⟨ha, fun w hw => absurd hw List.not_mem_nil⟩
  | @step run c m hm ih =>
    cases hbefore : run.recorder.aborted with
    | true => exact ⟨ha, (ih hbefore).writers_step m⟩
    | false =>
      by_cases hshift : m = .shift
      · subst hshift
        have hnone := c.sound.writers_eq_nil (hm.1 rfl)
        refine ⟨ha, fun w hw => ?_⟩
        have hsame : (run.step .shift).writers = run.writers := rfl
        rw [hsame, hnone] at hw
        cases hw
      · rw [c.sound.aborted_step_of_ne_shift hshift, hbefore] at ha
        cases ha

/-! ## 4. Violations -/

/-- **Epoch violations are exact and final.**

1. While no writer is open and the recorder was not aborted, a shift tells of a violation exactly if
   a full or bound buffer holds committed bytes.  Then the recorder is aborted and nothing else has
   changed; otherwise the epoch has flipped once and nothing else has changed.
2. No other move aborts the recorder.
3. After an abort, whatever moves are made, the mark stays, the epoch is the same, all open writers
   are gone and end with nothing, no entry is committed, no byte reaches a sink, and the recorder is
   shut: drains and shifts tell of the violation, new writers are gone, and a discard gives all that
   is pooled. -/
theorem Reachable.violation (h : Reachable options run) :
    (run.writers = [] → run.recorder.aborted = false →
      (Recorder.Violates (Fallible.runOn Recorder.shift run.recorder).1 ↔
        run.recorder.Undrained) ∧
      (run.recorder.Undrained → (Fallible.runOn Recorder.shift run.recorder).2 =
        { run.recorder with aborted := true }) ∧
      (¬ run.recorder.Undrained → Fallible.runOn Recorder.shift run.recorder =
        (.ok run.recorder.epoch.current.other,
          run.recorder.moveEpoch EpochController.shifted))) ∧
    (∀ m, m ≠ .shift → (run.step m).recorder.aborted = run.recorder.aborted) ∧
    (run.recorder.aborted = true → ∀ moves, run.Admits moves →
      run.Halted (run.walk moves) (run.brings moves) ∧ (run.walk moves).recorder.Shut) := by
  have hs := h.sound
  refine ⟨fun _ ha => ?_, fun m hm => hs.aborted_step_of_ne_shift hm, fun ha moves hm => ?_⟩
  · refine ⟨⟨fun hviolates => ?_, fun hu => ?_⟩, fun hu => ?_, fun hu => ?_⟩
    · by_contra hu
      rw [hs.recorder.shift_flips hs.barrier ha hu] at hviolates
      obtain ⟨fault, hok, -⟩ := hviolates
      cases hok
    · rw [hs.recorder.shift_violates hs.barrier ha hu]
      exact ⟨_, rfl, rfl⟩
    · rw [hs.recorder.shift_violates hs.barrier ha hu]
    · exact hs.recorder.shift_flips hs.barrier ha hu
  · have hhalted := (h.stopped ha).halted_walk hs moves hm
    have hs' := (h.walk moves hm).sound
    exact ⟨hhalted, hs'.recorder.shut hs'.barrier hhalted.aborted⟩

/-- A checkpoint is bound to its thread when the epoch should flip.  After the violation a second
one is gone, drains are refused, and what was pooled is discarded. -/
theorem Reachable.violation_bound :
    let before := small.walk
      [.installSink {}, .start 7 .threadLocal, .append 0 [1, 2, 3], .finish 0]
    let after := before.step .shift
    let moves : List Move := [.start 7 .threadLocal, .append 0 [4, 5], .finish 0, .write,
      .flushTypeSet, .rotate, .shift, .replaceSink {}, .clear]
    before.recorder.Undrained ∧
      (Fallible.runOn Recorder.shift before.recorder).2 = { before.recorder with aborted := true } ∧
      after.Halted (after.walk moves) (after.brings moves) ∧ (after.walk moves).recorder.Shut ∧
      (after.brings moves).length = 1 ∧ usedBytes after.recorder.pooled = 35 ∧
      (after.walk moves).recorder.pooled = [] := by
  intro before after moves
  have hbefore : Reachable smallOptions before :=
    (Reachable.create create_small).walk _ (by decide +kernel)
  have hafter : Reachable smallOptions after := hbefore.step _ (by decide +kernel)
  have hviolates : Recorder.Violates (Fallible.runOn Recorder.shift before.recorder).1 :=
    ⟨.recorder (.undrained 1 .zero), by decide +kernel, rfl⟩
  obtain ⟨hexact, haborts, -⟩ := hbefore.violation.1 (by decide +kernel) (by decide +kernel)
  have hundrained := hexact.1 hviolates
  obtain ⟨hhalted, hshut⟩ := hafter.violation.2.2 (by decide +kernel) moves (by decide +kernel)
  exact ⟨hundrained, haborts hundrained, hhalted, hshut, by decide +kernel, by decide +kernel,
    by decide +kernel⟩

end Run

end TraceRecorder
