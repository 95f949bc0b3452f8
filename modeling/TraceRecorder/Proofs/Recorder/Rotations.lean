/-
# Rotations

A rotation is a drain that publishes before it detaches: the static constants and the threads while
writers may still begin, and the waiting constants under the barrier, as entries of the epoch that
it retires.  Then it detaches all that carries anything, so nothing stands against the flip.

* `Sound.detachForRotation`: all that a rotation does before it uses the sink;
* `Sound.rotate`: the whole rotation, whatever the sink answers;
* `Sound.flushTypeSet`: the other drain that publishes first, which stays in its epoch.

Nobody but the drain may hold a buffer when the epoch flips, since the buffers that others hold
belong to the old one.
-/
import TraceRecorder.Proofs.Recorder.Drains

namespace TraceRecorder

open Fallible (Ends)

namespace Recorder

variable {r : Recorder} {out : List Buffer} {e : Epoch}

/-! ## 1. The first half -/

/-- The entries that a rotation publishes before it detaches, if it is not refused. -/
def rotationEntries (r : Recorder) : Published :=
  if r.aborted || r.sink.isNone then {}
  else
    r.staticAndThreadEntries ++
      match Fallible.runOn writeStaticsAndThreads r with
      | (.ok _, r) => (r.moveEpoch EpochController.raise).typeSetEntries true
      | (.error _, _) => {}

/-- What the first half of a drain leaves alone. -/
structure Prepared (r r' : Recorder) : Prop where
  options : r'.options = r.options
  sink : r'.sink = r.sink

theorem Prepared.trans {r' r'' : Recorder} (h : Prepared r r') (h' : Prepared r' r'') :
    Prepared r r'' := ⟨h'.options.trans h.options, h'.sink.trans h.sink⟩

theorem Trades.prepared {r' : Recorder} {out' : List Buffer} {p : Published}
    (h : Trades r out r' out' e p) : Prepared r r' where
  options := options_eq_of_surroundings_eq h.surroundings
  sink := sink_eq_of_surroundings_eq h.surroundings

theorem runOn_leaseEpoch_raise {r₁ : Recorder} (h : r₁.epoch = r.epoch) :
    Fallible.runOn (leaseEpoch true) { r₁.moveEpoch EpochController.raise with typeSet := [] } =
      (.ok r.epoch.current, { r₁.moveEpoch EpochController.raise with typeSet := [] }) := by
  have hbarrier : (r₁.moveEpoch EpochController.raise).epoch.barrier =
      some { retiring := r.epoch.current } := by
    rw [← h]
    rfl
  simp [leaseEpoch, EpochController.draining, hbarrier]

theorem Trades.retireTypeSet {r₁ : Recorder} {p : Published}
    (h : Trades r out r₁ out r.epoch.current p) :
    Ends (writeTypeSet true) (r₁.moveEpoch EpochController.raise) fun answer r₂ =>
      Refused answer ∨ Trades { r₁.moveEpoch EpochController.raise with typeSet := [] } out r₂ out
        r.epoch.current ((r₁.moveEpoch EpochController.raise).typeSetEntries true) :=
  (h.sound.moveEpoch EpochController.raise).writeTypeSet true (runOn_leaseEpoch_raise h.epoch)

theorem Trades.settles_retireTypeSet {r₁ r₂ : Recorder} {p q : Published}
    (h : Trades r out r₁ out e p)
    (h' : Trades { r₁.moveEpoch EpochController.raise with typeSet := [] } out r₂ out e q) :
    Prepared r r₂ ∧ r₂.epoch = r.epoch.raise ∧ Settles r out r₂ out { published := p ++ q } := by
  have hs := h'.settles
  have hlast : Settles r₁ out r₂ out { published := q } :=
    ⟨hs.entries, hs.row, hs.chunk, hs.cut, hs.last⟩
  have hp := h.prepared.trans ⟨h'.prepared.options, h'.prepared.sink⟩
  exact ⟨hp, h'.epoch.trans (congrArg EpochController.raise h.epoch), h.settles.trans hlast⟩

/-- **The ways in which the first half of a rotation ends**: it is refused at once, or one of the
two publications meets a fault, or all that is pooled and carries anything is detached. -/
inductive FirstHalf (r : Recorder) (out : List Buffer) :
    Except Fault Detached → Recorder → Prop where
  | refused {fault : Fault} (h : r.aborted = true ∨ r.sink = none) :
      FirstHalf r out (.error fault) r
  | tables {fault : Fault} {r₁ : Recorder} (hready : r.aborted = false ∧ r.sink ≠ none)
      (hfirst : Fallible.runOn writeStaticsAndThreads r = (.error fault, r₁)) :
      FirstHalf r out (.error fault) r₁
  | types {n : Nat} {fault : Fault} {r₁ r₂ : Recorder}
      (hready : r.aborted = false ∧ r.sink ≠ none)
      (hfirst : Fallible.runOn writeStaticsAndThreads r = (.ok n, r₁))
      (ht : Trades r out r₁ out r.epoch.current r.staticAndThreadEntries)
      (hlast : Fallible.runOn (writeTypeSet true) (r₁.moveEpoch EpochController.raise) =
        (.error fault, r₂)) :
      FirstHalf r out (.error fault) (r₂.moveEpoch EpochController.lower)
  | detached {n m : Nat} {d : Detached} {r₁ r₂ r₃ : Recorder}
      (hready : r.aborted = false ∧ r.sink ≠ none)
      (hfirst : Fallible.runOn writeStaticsAndThreads r = (.ok n, r₁))
      (ht : Trades r out r₁ out r.epoch.current r.staticAndThreadEntries)
      (hlast : Fallible.runOn (writeTypeSet true) (r₁.moveEpoch EpochController.raise) =
        (.ok m, r₂))
      (ht' : Trades { r₁.moveEpoch EpochController.raise with typeSet := [] } out r₂ out
        r.epoch.current ((r₁.moveEpoch EpochController.raise).typeSetEntries true))
      (hdetach : Fallible.runOn (detach r.epoch.current) r₂ = (.ok d, r₃)) :
      FirstHalf r out (.ok d)
        (((r₃.moveEpoch EpochController.flip).moveEpoch EpochController.lower).count fun s =>
          { s with rotations := s.rotations + 1 }).notifyThreads

/-- **The first half of a rotation**, step by step.  Since all that carries anything is detached,
nothing stands against the flip. -/
theorem Sound.firstHalf (h : r.Sound out r.epoch.current) :
    Ends detachForRotation r (FirstHalf r out) := by
  unfold Recorder.detachForRotation
  refine ends_ready ?_ fun fault hno => .refused hno
  rintro hlive ⟨s, hs⟩
  have hready : r.aborted = false ∧ r.sink ≠ none := ⟨hlive, by simp [hs]⟩
  rcases hfirst : Fallible.runOn Recorder.writeStaticsAndThreads r with ⟨fault | n, r₁⟩
  · exact Ends.stop hfirst (.tables hready hfirst)
  have ht := (h.writeStaticsAndThreads.run_eq hfirst).resolve_left (not_refused_ok n)
  refine Ends.after hfirst ?_
  rcases hlast : Fallible.runOn (Recorder.writeTypeSet true) (r₁.moveEpoch EpochController.raise)
    with ⟨fault | m, r₂⟩
  · exact Ends.stop (runOn_underBarrier (by rw [Fallible.runOn_bind, hlast]))
      (.types hready hfirst ht hlast)
  have ht' := (ht.retireTypeSet.run_eq hlast).resolve_left (not_refused_ok m)
  rcases hdetach : Fallible.runOn (Recorder.detach r.epoch.current) r₂ with ⟨answer, r₃⟩
  obtain ⟨d, rfl, -, -, hempty, ht₃⟩ := ht'.sound.detach.run_eq hdetach
  have hzero := ht₃.sound.undrained_eq_zero_iff.2 hempty
  refine Ends.after (runOn_underBarrier ?_) (Ends.after (Fallible.runOn_modify _ _)
    (Ends.after (Fallible.runOn_modify _ _) (Ends.of_run (Fallible.runOn_pure _ _)
      (.detached hready hfirst ht hlast ht' hdetach))))
  simp [hlast, ht.epoch, hdetach, runOn_shiftUnderBarrier_of_zero hzero]

theorem rotationEntries_of_refused (h : r.aborted = true ∨ r.sink = none) :
    r.rotationEntries = {} := by
  rw [rotationEntries, if_pos (by rcases h with hn | hn <;> simp [hn])]

theorem rotationEntries_of_error {fault : Fault} {r₁ : Recorder}
    (h : r.aborted = false ∧ r.sink ≠ none)
    (hfirst : Fallible.runOn writeStaticsAndThreads r = (.error fault, r₁)) :
    r.rotationEntries = r.staticAndThreadEntries := by
  simp [rotationEntries, h.1, Option.isNone_iff_eq_none, h.2, hfirst, Published.append_nothing]

theorem rotationEntries_of_ok {n : Nat} {r₁ : Recorder} (h : r.aborted = false ∧ r.sink ≠ none)
    (hfirst : Fallible.runOn writeStaticsAndThreads r = (.ok n, r₁)) :
    r.rotationEntries = r.staticAndThreadEntries ++
      (r₁.moveEpoch EpochController.raise).typeSetEntries true := by
  simp [rotationEntries, h.1, Option.isNone_iff_eq_none, h.2, hfirst]

/-- **The first half of `rotate`**: constants and threads are published, all that is pooled and
carries anything is detached, and the epoch is retired. -/
theorem Sound.detachForRotation (h : r.Sound out r.epoch.current) (hb : r.epoch.barrier = none) :
    Ends detachForRotation r fun answer r' => Refused answer ∨ (Prepared r r' ∧
      match answer with
      | .error _ => r'.Sound out r.epoch.current ∧ r'.epoch = r.epoch ∧
          Settles r out r' out { published := r.rotationEntries }
      | .ok d => (∃ s, r.sink = some s) ∧ Detached.Sorted d.parts ∧
          r'.Sound (d.buffers ++ out) r.epoch.current ∧ r'.epoch = r.epoch.shifted ∧
          (∀ b ∈ r'.pooled, b.isEmpty = true) ∧
          Settles r out r' (d.buffers ++ out) { published := r.rotationEntries }) := by
  refine h.firstHalf.mono ?_
  rintro answer r' hcase
  cases hcase with
  | refused hno =>
    rw [rotationEntries_of_refused hno]
    exact .inr ⟨⟨rfl, rfl⟩, h, rfl, (Trades.refl h).settles⟩
  | tables hready hfirst =>
    refine (h.writeStaticsAndThreads.run_eq hfirst).imp Refused.throw ?_
    intro ht
    rw [rotationEntries_of_error hready hfirst]
    exact ⟨ht.prepared, ht.sound, ht.epoch, ht.settles⟩
  | types hready hfirst ht hlast =>
    refine (ht.retireTypeSet.run_eq hlast).imp Refused.throw ?_
    intro ht'
    obtain ⟨hp, hepoch, hsettles⟩ := ht.settles_retireTypeSet ht'
    rw [rotationEntries_of_ok hready hfirst]
    refine ⟨⟨hp.options, hp.sink⟩, ht'.sound.moveEpoch _, ?_,
      hsettles.entries, hsettles.row, hsettles.chunk, hsettles.cut, hsettles.last⟩
    exact (congrArg EpochController.lower hepoch).trans (EpochController.lower_raise hb)
  | detached hready hfirst ht hlast ht' hdetach =>
    obtain ⟨hp, hepoch, hsettles⟩ := ht.settles_retireTypeSet ht'
    obtain ⟨_, ⟨⟩, hk, -, hempty, ht₃⟩ := ht'.sound.detach.run_eq hdetach
    have hdone := hp.trans ht₃.prepared
    rw [rotationEntries_of_ok hready hfirst]
    refine .inr ⟨⟨hdone.options, hdone.sink⟩, Option.ne_none_iff_exists'.1 hready.2, hk,
      ht₃.sound.alike (fun kind => by cases kind <;> rfl) rfl rfl rfl, ?_, hempty,
      (hsettles.thenSent ht₃.settles).alike rfl rfl rfl rfl⟩
    exact (congrArg (fun c => c.flip.lower) (ht₃.epoch.trans hepoch)).trans
      (EpochController.lower_flip_raise hb)

/-! ## 2. Whole drains -/

/-- **A rotation**, while nobody holds a buffer: either it is refused before it detaches anything,
or the epoch flips. -/
theorem Sound.rotate (h : r.Sound [] r.epoch.current) (hb : r.epoch.barrier = none) :
    Ends rotate r fun answer r' => Refused answer ∨
      (r'.Sound [] r'.epoch.current ∧ r'.options = r.options ∧
        (r'.epoch = r.epoch ∨ r'.epoch = r.epoch.shifted) ∧
        Settles r [] r' []
          { published := r.rotationEntries
            accepted := r.sent Recorder.detachForRotation
            unsent := r.unsent Recorder.detachForRotation }) := by
  have hfirst := h.detachForRotation hb
  rcases hrun : Fallible.runOn Recorder.detachForRotation r with ⟨fault | d, r₁⟩
  · refine Ends.stop hrun ((hfirst.run_eq hrun).imp Refused.throw ?_)
    rintro ⟨hp, hs, hepoch, hsettles⟩
    rw [sent, unsent, hrun, hepoch]
    exact ⟨hs, hp.options, .inl rfl, hsettles⟩
  · obtain ⟨hp, ⟨s, hs⟩, hk, hs₁, hepoch, hempty, hsettles⟩ :=
      (hfirst.run_eq hrun).resolve_left (not_refused_ok _)
    refine (ends_drain hrun hs₁ hk (hp.sink.trans hs)).mono ?_
    rintro answer r' ⟨s', hs', honly, hdrain, -⟩
    have hepoch' : r'.epoch = r.epoch.shifted :=
      (epoch_eq_of_surroundings_eq honly.surroundings).trans hepoch
    have hoptions : r'.options = r.options :=
      (options_eq_of_surroundings_eq honly.surroundings).trans hp.options
    refine .inr ⟨hs'.retag ?_ _, hoptions, .inr hepoch', hsettles.thenSent hdrain⟩
    rw [List.append_nil, honly.pooled]
    exact hempty

/-- What `flushTypeSet` does before it uses the sink. -/
def detachForFlush : Action Detached := do
  let r ← get
  let _ ← writeRelations recorderThread .global false r.typeSet.relations
  detachForWrite

theorem flushTypeSet_eq : flushTypeSet = (do let d ← detachForFlush; emit d) := by
  unfold Recorder.flushTypeSet detachForFlush Recorder.write
  simp only [bind_assoc]

/-- The entries of constants that are written and still wait. -/
def waitingEntries (r : Recorder) : Published :=
  r.relationEntries recorderThread .global false r.typeSet.relations

/-- **The waiting constants are published, and then the epoch is drained** as far as it can be. -/
theorem Sound.flushTypeSet (h : r.Sound out r.epoch.current) (hb : r.epoch.barrier = none) :
    Ends flushTypeSet r fun answer r' => Refused answer ∨
      (r'.Sound out r.epoch.current ∧ r'.options = r.options ∧ r'.epoch = r.epoch ∧
        Settles r out r' out
          { published := r.waitingEntries
            accepted := r.sent detachForFlush
            unsent := r.unsent detachForFlush }) := by
  have hfirst := h.writeRelations recorderThread .global false rfl r.typeSet.relations
  rcases hrun : Fallible.runOn
      (Recorder.writeRelations recorderThread .global false r.typeSet.relations) r with
    ⟨fault | n, r₁⟩
  · have hflush : Fallible.runOn detachForFlush r = (.error fault, r₁) := by
      simp [detachForFlush, hrun]
    refine Ends.after (Fallible.runOn_get r)
      (Ends.stop hrun ((hfirst.run_eq hrun).imp Refused.throw ?_))
    intro ht
    rw [sent, unsent, hflush]
    exact ⟨ht.sound, ht.prepared.options, ht.epoch, ht.settles⟩
  · have ht := (hfirst.run_eq hrun).resolve_left (not_refused_ok _)
    have hflush : Fallible.runOn detachForFlush r = Fallible.runOn Recorder.detachForWrite r₁ := by
      simp [detachForFlush, hrun]
    have hsent : r.sent detachForFlush = r₁.sent Recorder.detachForWrite := by
      rw [sent, sent, hflush]
    have hunsent : r.unsent detachForFlush = r₁.unsent Recorder.detachForWrite := by
      rw [unsent, unsent, hflush]
    have hwrite := Sound.write (ht.epoch ▸ ht.sound) (by rw [ht.epoch, hb])
    rw [ht.epoch] at hwrite
    refine Ends.after (Fallible.runOn_get r) (Ends.after hrun (hwrite.mono ?_))
    rintro answer r' ⟨hdrain, hpost⟩
    refine .inr ?_
    rw [hsent, hunsent]
    rcases hpost with ⟨rfl, -, -⟩ | ⟨s, s', hs, hsur, hs', -, -⟩
    · exact ⟨ht.sound, ht.prepared.options, ht.epoch, ht.settles.thenSent hdrain⟩
    · exact ⟨hs', (options_eq_of_surroundings_eq hsur).trans ht.prepared.options,
        (epoch_eq_of_surroundings_eq hsur).trans ht.epoch, ht.settles.thenSent hdrain⟩

/-! ## 3. Chunks -/

theorem flatMap_content_eq {s s' : Option Sink} (h : s'.map Sink.content = s.map Sink.content) :
    s'.toList.flatMap Sink.content = s.toList.flatMap Sink.content := by
  have hflat : ∀ s : Option Sink,
      s.toList.flatMap Sink.content = (s.map Sink.content).getD [] := by
    intro s
    cases s <;> simp
  rw [hflat, h, ← hflat]

/-- What passing on the bytes of the chunk does to a recorder. -/
theorem ends_flushOrThrow (r : Recorder) :
    Ends flushOrThrow r fun _ r' => ∃ sink, r' = { r with sink := sink } ∧
      sink.map Sink.content = r.sink.map Sink.content := by
  unfold flushOrThrow
  cases hs : r.sink with
  | none =>
    have hrun : Fallible.runOn (flushSink {}) r = (.ok {}, r) := by
      simp [flushSink, hs]
    refine Ends.after hrun (Ends.of_run (Fallible.runOn_pure _ _) ⟨none, ?_, rfl⟩)
    rw [← hs]
  | some s =>
    have hsame : (some (Sink.passOn ({}, s)).2).map Sink.content = (some s).map Sink.content :=
      congrArg some (Sink.content_passOn ({}, s))
    refine Ends.after (runOn_flushSink hs {}) ?_
    cases (Sink.passOn ({}, s)).1.failure with
    | none => exact Ends.of_run (Fallible.runOn_pure _ _) ⟨_, rfl, hsame⟩
    | some fault => exact Ends.of_run (Fallible.runOn_throw _ _) ⟨_, rfl, hsame⟩

/-- **The next chunk begins**, and the last one is the answer; or the last one goes on. -/
theorem ends_replaceSink (r : Recorder) (sink : Sink) :
    Ends (replaceSink sink) r fun answer r' => match answer with
      | .error _ => ∃ sink, r' = { r with sink := sink } ∧
          sink.map Sink.content = r.sink.map Sink.content
      | .ok old => r' = r.withSink sink ∧ old.map Sink.content = r.sink.map Sink.content := by
  unfold replaceSink
  refine r.ends_flushOrThrow.bind ?_ ?_
  · rintro _ _ ⟨old, rfl, hcontent⟩
    exact ⟨rfl, hcontent⟩
  · rintro fault r' hpost
    exact hpost

end Recorder

end TraceRecorder
