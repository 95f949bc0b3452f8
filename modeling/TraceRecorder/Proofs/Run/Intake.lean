/-
# What a run is told

A run is told what to record in three ways: open writers are given relations, the recorder is told
of relations, constants and threads, and some moves make it write down what it was told (`Setting`).
The `Intake` of some inputs is the account of that which whoever uses a run can keep.  It knows of
no pool, no buffer and no option.

* `Sound.recounts`: a move in which the recorder writes on its own behalf publishes what the setting
  has for it, and leaves nothing unsent;
* `Sound.started`, `Sound.appended`, `Sound.finished`: what moves of one writer do to a run.
-/
import TraceRecorder.Proofs.Recorder.Recitals
import TraceRecorder.Proofs.Run.Chronicle

namespace TraceRecorder

open Fallible (Ends Keeps)

/-! ## 1. Inputs -/

namespace Setting

/-- **The relations that the recorder writes in a move.** -/
def recited (s : Setting) : Move → List Relation
  | .writeStatics _ => s.statics
  | .writeThreads _ => ThreadInfo.table s.host.liveThreads
  | .writeStaticsAndThreads => s.statics ++ ThreadInfo.table s.host.liveThreads
  | .writeTypeSet | .flushTypeSet => s.typeSet.relations
  | .writeCheckpoint thread id mounted => thread.checkpointRelations id mounted
  | .writeSimplified id => [ThreadInfo.simplified id]
  | .rotate => if s.sink then s.rotation else []
  | _ => []

/-- **What the recorder was told**, after one more move. -/
def after (s : Setting) : Move → Setting
  | .registerStatic relation => { s with registered := s.registered ++ [relation] }
  | .changeStatic place relation => { s with registered := s.registered.set place relation }
  | .registerConstant c => { s with typeSet := s.typeSet.register c }
  | .clearTypeSet | .writeTypeSet => { s with typeSet := [] }
  | .purgeUnloading => { s with typeSet := s.typeSet.purge s.host.unloading }
  | .changeHost f => { s with host := f s.host }
  | .rotate => if s.sink then { s with typeSet := [] } else s
  | .installSink _ | .replaceSink _ => { s with sink := true }
  | _ => s

end Setting

/-- **What whoever uses a run does next**: a relation is added to an open writer, or another move is
made. -/
inductive Input where
  | add (writer : Nat) (relation : Relation)
  | other (m : Move)

namespace Input

def move : Input → Move
  | add writer relation => .append writer relation.encode
  | other m => m

/-- Segments are only written as relations, and no writer is abandoned. -/
def orderly : Input → Bool
  | other (.append ..) | other (.abandon _) => false
  | _ => true

def relations (s : Setting) : Input → List Relation
  | add _ relation => [relation]
  | other m => s.recited m

/-- **Nothing is lost with the input.**  All that is written can stand in memory, and a new sink is
empty. -/
structure Faithful (input : Input) (run : Run) : Prop where
  admitted : input.move.admitted run
  delivers : input.move.delivers run = true
  orderly : input.orderly = true
  sizes : ∀ relation ∈ input.relations run.recorder.setting,
    relation.encode.length ≤ Memory.addressable
  kept : (run.step input.move).recorder.stats.checkpointsDropped =
    run.recorder.stats.checkpointsDropped
  fresh : (input.move.ledger run).brought = []

instance (input : Input) (run : Run) : Decidable (input.Faithful run) :=
  decidable_of_iff (input.move.admitted run ∧ input.move.delivers run = true ∧
      input.orderly = true ∧ (∀ relation ∈ input.relations run.recorder.setting,
        relation.encode.length ≤ Memory.addressable) ∧
      (run.step input.move).recorder.stats.checkpointsDropped =
        run.recorder.stats.checkpointsDropped ∧ (input.move.ledger run).brought = [])
    ⟨fun ⟨ha, hd, ho, hs, hk, hf⟩ => ⟨ha, hd, ho, hs, hk, hf⟩,
      fun ⟨ha, hd, ho, hs, hk, hf⟩ => ⟨ha, hd, ho, hs, hk, hf⟩⟩

end Input

/-- **What a run was told.** -/
structure Intake where
  setting : Setting := {}
  /-- The relations that each open writer was given. -/
  pending : List (List Relation) := []
  /-- The relations of all finished writers, and those that the recorder wrote itself. -/
  told : List Relation := []

namespace Intake

/-- The intake after one more input. -/
def next (i : Intake) : Input → Intake
  | .add writer relation => { i with pending := i.pending.modify writer (· ++ [relation]) }
  | .other (.start ..) => { i with pending := i.pending ++ [[]] }
  | .other (.finish writer) =>
    { i with
      pending := i.pending.eraseIdx writer
      told := i.told ++ (i.pending[writer]?).getD [] }
  | .other m => { i with setting := i.setting.after m, told := i.told ++ i.setting.recited m }

/-- **The intake of some inputs.** -/
def of (host : Host) (inputs : List Input) : Intake :=
  inputs.foldl next { setting := { host := host } }

theorem of_append (host : Host) (inputs : List Input) (input : Input) :
    of host (inputs ++ [input]) = (of host inputs).next input := by
  rw [of, List.foldl_append]
  rfl

end Intake

/-! ## 2. What the recorder writes itself -/

namespace Recorder

variable {r r' : Recorder} {out : List Buffer} {e : Epoch} {p : Published}

/-- **A move publishes what the setting has for it**, and leaves nothing unsent. -/
structure Recounts (r : Recorder) (m : Move) (l : Ledger) (r' : Recorder) : Prop where
  setting : r'.setting = r.setting.after m
  recites : r.Recites (r.setting.recited m) l.published.entries r'
  unsent : l.unsent = []

theorem Recounts.nothing {m : Move} {l : Ledger} (hs : r'.setting = r.setting.after m)
    (hr : r.setting.recited m = []) (hp : l.published = {}) (hu : l.unsent = [])
    (hd : r'.score.1 = r.score.1) : r.Recounts m l r' where
  setting := hs
  recites := by
    rw [hr, hp]
    exact .nothing (Nat.le_of_eq hd.symm)
  unsent := hu

theorem Sound.writeRelations_recounts {kind : BufferKind} (h : r.Sound out r.epoch.current)
    (ha : r.aborted = false) (thread : ThreadId) (hm : r.options.Modest kind) {m : Move}
    (hs : ∀ relation ∈ r.setting.recited m, relation.encode.length ≤ Memory.addressable)
    (hafter : r.setting.after m = r.setting) :
    Ends (Recorder.writeRelations thread kind false (r.setting.recited m)) r fun _ r' =>
      r.Recounts m { published := relationEntries thread kind false (r.setting.recited m) r }
        r' := by
  refine (h.writeRelations_recites ha thread hm false rfl hs).mono ?_
  rintro _ r' ⟨-, ht, hr⟩
  exact ⟨(setting_eq_of_surroundings_eq ht.surroundings).trans hafter.symm, hr, rfl⟩

/-- **The waiting constants are written**, and wait no more. -/
theorem Sound.writeTypeSet_recounts (h : r.Sound out r.epoch.current) (ha : r.aborted = false)
    (hm : r.options.Modest .global)
    (hs : ∀ relation ∈ r.typeSet.relations, relation.encode.length ≤ Memory.addressable) :
    Ends (Recorder.writeTypeSet false) r fun _ r' =>
      r.Recounts .writeTypeSet { published := r.typeSetEntries false } r' := by
  unfold Recorder.writeTypeSet
  refine Ends.after (Fallible.runOn_get r) (Ends.after (Fallible.runOn_set _ _) ?_)
  refine (h.withoutTypeSet.writeRelations_recites ha recorderThread hm false rfl hs).mono ?_
  rintro _ r' ⟨-, ht, hr⟩
  exact ⟨setting_eq_of_surroundings_eq ht.surroundings, ⟨hr.dropped, hr.yields⟩, rfl⟩

theorem setting_replaceSink (r : Recorder) (sink : Sink) :
    (Fallible.runOn (Recorder.replaceSink sink) r).2.setting = { r.setting with sink := true } := by
  cases hs : r.sink with
  | none => simp [Recorder.replaceSink, flushOrThrow, flushSink, hs, setting]
  | some s =>
    have hrun := runOn_flushSink hs {}
    cases hf : (Sink.passOn ({}, s)).1.failure <;>
      simp [Recorder.replaceSink, flushOrThrow, hrun, hf, setting, withSink]

theorem keeps_score_replaceSink (sink : Sink) : Keeps score (Recorder.replaceSink sink) := by
  intro r
  have hreplace := r.ends_replaceSink sink
  rcases hrun : Fallible.runOn (Recorder.replaceSink sink) r with ⟨fault | old, r'⟩
  · obtain ⟨_, rfl, -⟩ := hreplace.run_eq hrun
    rfl
  · obtain ⟨rfl, -⟩ := hreplace.run_eq hrun
    rfl

end Recorder

/-- No writer begins, goes on or ends in the move. -/
def Move.byRecorder : Move → Bool
  | start .. | append .. | finish _ | abandon _ => false
  | _ => true

namespace Run

variable {options : RecorderOptions} {run : Run} {m : Move}

/-- A move publishes what the setting has for it. -/
def Recounts (run : Run) (m : Move) : Prop :=
  run.recorder.Recounts m (m.ledger run) (run.step m).recorder

theorem recounts_of_ends {α : Type} {x : Action α} (hact : run.act m = run.perform x)
    (hx : Ends x run.recorder fun _ r' => run.recorder.Recounts m (m.ledger run) r') :
    run.Recounts m := by
  unfold Recounts Run.step
  rw [hact]
  exact hx

/-- **A drain recounts**, since neither memory is refused nor the sink refuses a call. -/
theorem recounts_drain {x : Action Nat} (hact : run.act m = run.perform x) (hm : m.admitted run)
    (hd : m.delivers run = true)
    (hx : Ends x run.recorder fun answer r' => Refused answer ∨
      (run.recorder.Drains (run.recorder.setting.recited m) (m.ledger run).published.entries
        (m.ledger run).unsent answer r' ∧ r'.setting = run.recorder.setting.after m)) :
    run.Recounts m := by
  have hg := hm.2
  have hsink := Move.fault_ne_sink hd
  unfold Recounts Run.step
  simp only [Move.granted, Run.fault?, hact, Run.perform] at hg hsink ⊢
  rcases hrun : Fallible.runOn x run.recorder with ⟨answer, r'⟩
  rw [hrun] at hg hsink
  obtain ⟨hdrains, hsetting⟩ := (hx.run_eq hrun).resolve_left (not_refused hg)
  refine ⟨hsetting, hdrains.recites, hdrains.unsent.resolve_left ?_⟩
  rintro ⟨report, rfl⟩
  exact hsink report rfl

/-- **A move in which no writer begins, goes on or ends publishes what the setting has for it.** -/
theorem Sound.recounts (h : run.Sound options) (ho : ∀ kind, options.Modest kind)
    (ha : run.recorder.aborted = false) (hm : m.admitted run) (hd : m.delivers run = true)
    (hw : m.byRecorder = true)
    (hs : ∀ relation ∈ run.recorder.setting.recited m,
      relation.encode.length ≤ Memory.addressable) : run.Recounts m := by
  have hr := h.recorder
  have ho : ∀ kind, run.recorder.options.Modest kind := fun kind => h.options ▸ ho kind
  cases m with
  | start | append | finish | abandon => cases hw
  | releaseThread thread =>
    refine recounts_of_ends rfl (((hr.releaseThread thread).and
      ((Recorder.keeps_score (Recorder.keeps_releaseThread thread)).ends _)).mono ?_)
    rintro _ r' ⟨⟨-, ht⟩, hscore⟩
    exact .nothing (Recorder.setting_eq_of_surroundings_eq ht.surroundings) rfl rfl rfl
      (congrArg Prod.fst hscore)
  | writeStatics thread =>
    have hrecounts : Ends (get >>= fun r => Recorder.writeRelations thread .global false r.statics)
        run.recorder _ :=
      Ends.after (Fallible.runOn_get _) (hr.writeRelations_recounts ha thread (ho _) hs rfl)
    exact recounts_of_ends rfl hrecounts
  | writeThreads thread =>
    exact recounts_of_ends rfl (Ends.after (Fallible.runOn_get _)
      (hr.writeRelations_recounts ha thread (ho _) hs rfl))
  | writeStaticsAndThreads =>
    refine recounts_of_ends rfl ((hr.writeStaticsAndThreads_recites ha (ho _) hs).mono ?_)
    rintro _ r' ⟨-, ht, hrecites⟩
    exact ⟨Recorder.setting_eq_of_surroundings_eq ht.surroundings, hrecites, rfl⟩
  | writeTypeSet => exact recounts_of_ends rfl (hr.writeTypeSet_recounts ha (ho _) hs)
  | writeCheckpoint thread id mounted =>
    refine recounts_of_ends (x := Recorder.writeCheckpoint thread id mounted) rfl ?_
    cases mounted with
    | none => exact hr.writeRelations_recounts ha thread.id (ho _) hs rfl
    | some v => exact hr.writeRelations_recounts ha v.id (ho _) hs rfl
  | writeSimplified id =>
    exact recounts_of_ends rfl (hr.writeRelations_recounts ha id (ho _) hs rfl)
  | registerStatic | changeStatic | registerConstant | clearTypeSet | purgeUnloading | changeHost
  | setClock | notifyThreads => exact .nothing rfl rfl rfl rfl rfl
  | write => exact recounts_drain rfl hm hd (hr.write_drains h.barrier)
  | flushTypeSet =>
    exact recounts_drain rfl hm hd (hr.flushTypeSet_drains h.barrier ha (ho _) hs)
  | clear => cases hd
  | shift =>
    refine recounts_of_ends rfl ((hr.shift h.barrier).mono ?_)
    rintro _ r' (⟨-, -, rfl⟩ | ⟨-, -, -, rfl⟩ | ⟨-, -, -, rfl⟩) <;>
      exact .nothing rfl rfl rfl rfl rfl
  | rotate =>
    cases hsink : run.recorder.sink with
    | none =>
      have hnone : run.recorder.setting.sink = false := congrArg Option.isSome hsink
      have hfirst : Fallible.runOn Recorder.detachForRotation run.recorder =
          (.error (.recorder .noSink), run.recorder) := by
        simp [Recorder.detachForRotation, Recorder.ensureLive, Recorder.ensureSink, ha, hsink]
      refine recounts_of_ends rfl (Ends.stop hfirst (.nothing ?_ ?_ ?_ ?_ rfl))
      · simp [Setting.after, hnone]
      · simp [Setting.recited, hnone]
      · simp [Move.ledger, Recorder.rotationEntries, hsink]
      · simp [Move.ledger, Recorder.unsent, hfirst]
    | some sink =>
      have hsome : run.recorder.setting.sink = true := congrArg Option.isSome hsink
      have hrecited : run.recorder.setting.recited .rotate = run.recorder.setting.rotation :=
        if_pos hsome
      have hafter : run.recorder.setting.after .rotate =
          { run.recorder.setting with typeSet := [] } := if_pos hsome
      refine recounts_drain (x := Recorder.rotate) rfl hm hd ?_
      rw [hrecited, hafter]
      exact hr.rotate_drains h.barrier ha (ho _) hsome (hrecited ▸ hs)
  | installSink sink =>
    refine recounts_of_ends rfl (Ends.after (Fallible.runOn_get _) ?_)
    cases hsink : run.recorder.sink with
    | none => exact Ends.of_run (Fallible.runOn_set _ _) (.nothing rfl rfl rfl rfl rfl)
    | some old =>
      refine Ends.of_run (Fallible.runOn_throw _ _) (.nothing ?_ rfl rfl rfl rfl)
      have hsome : run.recorder.setting.sink = true := congrArg Option.isSome hsink
      exact congrArg (Setting.mk _ _ _) hsome
  | replaceSink sink =>
    have hstep : (run.step (.replaceSink sink)).recorder =
        (Fallible.runOn (Recorder.replaceSink sink) run.recorder).2 := by
      show (run.replaceSink sink).2.recorder = _
      unfold Run.replaceSink
      rcases Fallible.runOn (Recorder.replaceSink sink) run.recorder with ⟨_ | _, _⟩ <;> rfl
    unfold Recounts
    rw [hstep]
    exact .nothing (run.recorder.setting_replaceSink sink) rfl rfl rfl
      (congrArg Prod.fst (Recorder.keeps_score_replaceSink sink run.recorder))

end Run

/-! ## 3. Moves of one writer -/

/-- **A recorder is told nothing**, and its epoch is the same. -/
structure Recorder.GoesOn (r r' : Recorder) : Prop where
  setting : r'.setting = r.setting
  aborted : r'.aborted = r.aborted
  current : r'.epoch.current = r.epoch.current

theorem Recorder.GoesOn.of_surroundings {r r' : Recorder} {f : EpochController → EpochController}
    (h : r'.surroundings = (r.moveEpoch f).surroundings)
    (hf : (f r.epoch).current = r.epoch.current) : r.GoesOn r' where
  setting := (setting_eq_of_surroundings_eq h :)
  aborted := (aborted_eq_of_surroundings_eq h :)
  current := (congrArg EpochController.current (epoch_eq_of_surroundings_eq h)).trans hf

namespace Run

variable {options : RecorderOptions} {run : Run} {writer : Nat} {w : Writer}

/-- **One more writer is open.** -/
theorem Sound.started (h : run.Sound options) (thread : ThreadId) (kind : BufferKind)
    (hm : (Move.start thread kind).admitted run) :
    ∃ w r', run.step (.start thread kind) =
        { run with recorder := r', writers := run.writers ++ [w] } ∧
      run.recorder.GoesOn r' ∧ (w.Gone ∨ ∃ b, w.Holds b [] run.recorder.epoch.current) ∧
      (run.recorder.aborted = false → options.Modest kind → w.Scored run.recorder r') := by
  obtain ⟨w, r', hrun, hstep⟩ := h.runOn_start hm
  obtain ⟨ht, hw, -⟩ := (Writer.ends_start h.recorder thread kind false rfl).run_eq hrun
  have hon : run.recorder.GoesOn r' :=
    .of_surroundings (f := EpochController.enter) ht.surroundings rfl
  refine ⟨w, r', congrArg Prod.snd hstep, hon, hw, fun ha ho => ?_⟩
  have hscored := (Writer.ends_start_scored h.recorder ha thread kind false rfl).run_eq hrun
  obtain ⟨_, ⟨⟩, hscored⟩ := hscored.resolve_left fun hr => hr.2 (h.options ▸ ho)
  exact hscored

/-- **An open writer goes on.** -/
theorem Sound.appended (h : run.Sound options) (hw : run.writers[writer]? = some w)
    {segment : Bytes} (hm : (Move.append writer segment).admitted run) :
    ∃ w' r', run.step (.append writer segment) =
        { run with recorder := r', writers := run.writers.set writer w' } ∧
      run.recorder.GoesOn r' ∧
      ∀ b current, w.Holds b current run.recorder.epoch.current →
        (w'.Gone ∨ w.Took b current segment w' run.recorder.epoch.current) ∧
        (options.Modest w.kind → segment.length ≤ Memory.addressable →
          w'.Scored run.recorder r') := by
  obtain ⟨hs, hv, -⟩ := h.seen hw
  obtain ⟨outcome, w', r', hrun, hnot, hstep⟩ := h.runOn_append hw hm
  obtain ⟨_, _, ⟨⟩, -, hpost⟩ := (hv.append hs segment).run_eq hrun
  have hon : run.recorder.GoesOn r' :=
    .of_surroundings (f := id) (hpost.resolve_left hnot).1.surroundings rfl
  refine ⟨w', r', congrArg Prod.snd hstep, hon, ?_⟩
  intro b current hb
  rw [hb.buffer] at hs
  obtain ⟨_, _, ⟨⟩, -, hpost⟩ := (hb.append hs segment).run_eq hrun
  refine ⟨(hpost.resolve_left hnot).2, fun ho hsize => ?_⟩
  obtain ⟨_, _, ⟨⟩, hscored⟩ := (hb.append_scored hs hsize).run_eq hrun
  exact (hscored.resolve_left fun hr => hr.2 (h.options ▸ ho)).2

/-- **The last thing that an open writer does.** -/
theorem Sound.closed {α : Type} {x : Writer → Action α} (h : run.Sound options)
    (hw : run.writers[writer]? = some w)
    (hx : ∀ out, w.Valid run.recorder.epoch.current →
      run.recorder.Sound (w.buffer.toList ++ out) run.recorder.epoch.current →
      Ends (x w) run.recorder fun _ r' => ∃ r₁ out' p, r' = w.left r₁ ∧
        run.recorder.Trades (w.buffer.toList ++ out) r₁ out' run.recorder.epoch.current p) :
    ∃ r', (run.close writer x).2 =
        { run with recorder := r', writers := run.writers.eraseIdx writer } ∧
      run.recorder.GoesOn r' := by
  obtain ⟨hs, hv, hp⟩ := h.seen hw
  obtain ⟨r₁, _, _, hleft, ht⟩ := hx _ hv hs
  refine ⟨_, close_eq hw, .of_surroundings (f := (·.leave run.recorder.epoch.current)) ?_ rfl⟩
  rw [hleft, Writer.left, hp]
  exact congrArg (·.moveEpoch (·.leave run.recorder.epoch.current)) ht.surroundings

theorem Sound.finished (h : run.Sound options) (hw : run.writers[writer]? = some w) :
    ∃ r', run.step (.finish writer) =
        { run with recorder := r', writers := run.writers.eraseIdx writer } ∧
      run.recorder.GoesOn r' :=
  h.closed hw fun out hv hs => (hv.finish hs).mono fun _ _ ⟨_, r₁, _, hleft, ht, _⟩ =>
    ⟨r₁, out, _, hleft, ht⟩

end Run

end TraceRecorder
