/-
# What one pass of a drain takes

A drain detaches all that waits, lane by lane in order, and unless the sink refuses a call it sends
all of that.  Before it detaches anything it may write checkpoints of its own (`Emits`); their
entries come last on their lanes.

* `Sound.on_eq`: of each lane a pass takes the queue, and what is kept behind it;
* `Collects`: what the first half of a drain does to the lanes;
* `Collects.emit`: the whole drain, unless the sink refuses a call.
-/
import TraceRecorder.Proofs.Recorder.Order

namespace TraceRecorder

open Fallible (Ends)

/-! ## 1. Passes and lanes -/

namespace Detached

/-- The buffers of one pool. -/
def part (d : Detached) : BufferKind → List Buffer
  | .global => d.global
  | .threadLocal => d.threadLocal
  | .virtualThreadLocal => d.virtualThreadLocal

/-- **The entries that are taken from a lane**, in the order in which they are sent. -/
def on (d : Detached) (ℓ : Lane) : List Bytes :=
  ((d.part ℓ.kind).filter ℓ.owns).flatMap Buffer.entries

/-- The entries that are taken from a pool. -/
def entriesOf (d : Detached) (kind : BufferKind) : List Bytes :=
  (d.part kind).flatMap Buffer.entries

/-- **What is sent**: the entries of the global pool, then those of carrier threads, then those of
virtual threads. -/
def sections (d : Detached) : List Bytes :=
  d.entriesOf .global ++ (d.entriesOf .threadLocal ++ d.entriesOf .virtualThreadLocal)

theorem on_eq_entriesOf (d : Detached) {ℓ : Lane} (h : ℓ.kind ≠ .threadLocal) :
    d.on ℓ = d.entriesOf ℓ.kind := by
  have howns : ∀ b, ℓ.owns b = true := by
    cases ℓ with
    | carrier => exact absurd rfl h
    | _ => exact fun _ => rfl
  rw [on, List.filter_eq_self.2 fun b _ => howns b, entriesOf]

theorem buffers_eq (d : Detached) :
    d.buffers = d.global ++ (d.threadLocal ++ d.virtualThreadLocal) := by
  simp [buffers, parts]

theorem sections_eq (d : Detached) : d.sections = d.buffers.flatMap Buffer.entries := by
  rw [d.buffers_eq, List.flatMap_append, List.flatMap_append]
  rfl

theorem Sorted.part_eq {d : Detached} (h : Sorted d.parts) (kind : BufferKind) :
    d.part kind = d.buffers.filter fun b => b.kind == kind := by
  have hall : ∀ part ∈ d.parts, part.2.filter (fun b => b.kind == kind) =
      if part.1 = kind then part.2 else [] := by
    intro part hp
    by_cases hk : part.1 = kind
    · rw [if_pos hk, List.filter_eq_self]
      exact fun b hb => by simp [h part hp b hb, hk]
    · rw [if_neg hk, List.filter_eq_nil_iff]
      exact fun b hb => by simp [h part hp b hb, hk]
  have hg := hall (.global, d.global) (by simp [parts])
  have ht := hall (.threadLocal, d.threadLocal) (by simp [parts])
  have hv := hall (.virtualThreadLocal, d.virtualThreadLocal) (by simp [parts])
  rw [d.buffers_eq, List.filter_append, List.filter_append, hg, ht, hv]
  cases kind <;> simp [part]

end Detached

namespace Recorder

variable {r r' r'' : Recorder} {out : List Buffer} {e : Epoch}

theorem Sound.filter_pooled (h : r.Sound out e) (kind : BufferKind) :
    r.pooled.filter (fun b => b.kind == kind) = (r.space kind).pooled := by
  have hall : ∀ other, (r.space other).pooled.filter (fun b => b.kind == kind) =
      if other = kind then (r.space other).pooled else [] := by
    intro other
    by_cases hk : other = kind
    · rw [if_pos hk, List.filter_eq_self]
      exact fun b hb => by simp [h.kind_of_mem_pooled other hb, hk]
    · rw [if_neg hk, List.filter_eq_nil_iff]
      exact fun b hb => by simp [h.kind_of_mem_pooled other hb, hk]
  simp only [pooled, BufferKind.all, List.flatMap_cons, List.flatMap_nil, List.append_nil,
    List.filter_append, hall]
  cases kind <;> simp

end Recorder

/-- The bound buffers of a thread, where each one belongs to the thread that it is bound to. -/
theorem Space.filter_boundBuffers {s : Space} (ho : Dict.Ordered s.bindings)
    (hb : ∀ thread b, (thread, some b) ∈ s.bindings → b.owner = .thread thread)
    (thread : ThreadId) :
    s.boundBuffers.filter (Lane.owns (.carrier thread)) = (s.bound? thread).toList := by
  unfold Space.boundBuffers Space.bound? Dict.values
  generalize s.bindings = d at ho hb
  induction d with
  | nil => rfl
  | cons entry rest ih =>
    obtain ⟨t, o⟩ := entry
    have hrest : Dict.Ordered rest := (List.pairwise_cons.1 ho).2
    have ih := ih hrest fun t' b hm => hb t' b (List.mem_cons_of_mem _ hm)
    by_cases ht : thread = t
    · subst ht
      have hnone : Dict.find? rest thread = none :=
        Dict.find?_eq_none_of_ne fun pair hp => ho.ne_of_mem pair hp
      rw [hnone] at ih
      cases o with
      | none => simpa [Dict.find?] using ih
      | some b =>
        have howner : Lane.owns (.carrier thread) b = true :=
          beq_iff_eq.2 (hb thread b List.mem_cons_self)
        simp [Dict.find?, howner] at ih ⊢
        exact ih
    · have hfind : Dict.find? ((t, o) :: rest) thread = Dict.find? rest thread := by
        rw [Dict.find?, if_neg ht]
      rw [hfind]
      cases o with
      | none => exact ih
      | some b =>
        have howner : Lane.owns (.carrier thread) b = false := by
          have hb := hb t b List.mem_cons_self
          simp [Lane.owns, hb, Ne.symm ht]
        simp [howner] at ih ⊢
        exact ih

namespace Recorder

variable {r r' r'' : Recorder} {out : List Buffer} {e : Epoch}

/-- **All that waits on a lane** is in the pooled buffers of the lane. -/
theorem Sound.all_line (h : r.Sound out e) (ℓ : Lane) :
    (r.line ℓ).all = ((r.space ℓ.kind).pooled.filter ℓ.owns).flatMap Buffer.entries := by
  have hbound : ((r.space ℓ.kind).boundBuffers.filter ℓ.owns).flatMap Buffer.entries =
      (r.line ℓ).kept := by
    cases ℓ with
    | global => rw [Lane.kind, h.boundBuffers_eq_nil .global (by decide)]; rfl
    | virtual => rw [Lane.kind, h.boundBuffers_eq_nil .virtualThreadLocal (by decide)]; rfl
    | carrier thread =>
      have hpool := h.pool .threadLocal
      rw [Lane.kind, Space.filter_boundBuffers hpool.ordered
        fun t b hb => (hpool.bound t b hb).2.owner]
      rfl
  rw [Space.pooled, List.filter_append, List.flatMap_append, hbound]
  rfl

/-- **A pass takes of each lane all that waits there**, in order. -/
theorem Sound.on_eq (h : r.Sound out e) {d : Detached} (hk : Detached.Sorted d.parts)
    (hd : laden d.buffers = laden r.pooled) (ℓ : Lane) : d.on ℓ = (r.line ℓ).all := by
  have hladen : ∀ buffers : List Buffer, ((buffers.filter fun b => b.kind == ℓ.kind).filter
      ℓ.owns).flatMap Buffer.entries = (((laden buffers).filter fun b => b.kind == ℓ.kind).filter
      ℓ.owns).flatMap Buffer.entries := by
    intro buffers
    rw [← flatMap_laden fun _ => entries_of_isEmpty]
    simp only [laden, List.filter_filter]
    congr 1
    exact List.filter_congr fun b _ => by
      cases b.isEmpty <;> cases ℓ.owns b <;> cases b.kind == ℓ.kind <;> rfl
  rw [Detached.on, hk.part_eq, hladen, hd, ← hladen, h.filter_pooled, h.all_line]

theorem Sound.line_of_empty (h : r.Sound out e) (hempty : ∀ b ∈ r.pooled, b.isEmpty = true)
    (ℓ : Lane) : r.line ℓ = ⟨[], []⟩ := by
  have hall : (r.line ℓ).all = [] := by
    rw [h.all_line, List.flatMap_eq_nil_iff]
    intro b hb
    refine entries_of_isEmpty (hempty b ?_)
    exact List.mem_flatMap.2 ⟨ℓ.kind, by cases ℓ.kind <;> decide, (List.mem_filter.1 hb).1⟩
  obtain ⟨hqueue, hkept⟩ := List.append_eq_nil_iff.1 hall
  exact Line.ext hqueue hkept

end Recorder

/-! ## 2. Emissions -/

/-- The entries of a checkpoint that the recorder writes itself. -/
structure Emission where
  lane : Lane
  entries : List Bytes

namespace Recorder

variable {r r' r'' : Recorder} {out : List Buffer} {e : Epoch}
  {emissions emissions' : List Emission}

/-- **Some checkpoints are written one after the other.**  The entries of each one come last on its
lane, and no other lane changes. -/
inductive Emits : Recorder → List Emission → Recorder → Prop
  | done {r r' : Recorder} (h : r'.visible = r.visible) : Emits r [] r'
  | next {r r₁ r' : Recorder} {emission : Emission} {rest : List Emission} {l : Line}
      (hl : r.Shifts emission.lane l r₁) (hqueue : (r.line emission.lane).queue <+: l.queue)
      (hall : l.all = (r.line emission.lane).all ++ emission.entries) (hrest : Emits r₁ rest r') :
      Emits r (emission :: rest) r'

namespace Emits

theorem refl (r : Recorder) : Emits r [] r := .done rfl

theorem alike_left (h : Emits r' emissions r'') (hv : r'.visible = r.visible) :
    Emits r emissions r'' := by
  cases h with
  | done h => exact .done (h.trans hv)
  | @next _ r₁ _ emission _ _ hl hqueue hall hrest =>
    rw [line_eq_of_visible_eq hv] at hqueue hall
    exact .next ((Shifts.of_visible_eq hv emission.lane).trans hl) hqueue hall hrest

theorem trans (h : Emits r emissions r') (h' : Emits r' emissions' r'') :
    Emits r (emissions ++ emissions') r'' := by
  induction h with
  | done h => exact h'.alike_left h
  | next hl hqueue hall _ ih => exact .next hl hqueue hall (ih h')

end Emits

/-- **A checkpoint of relations is one emission.** -/
theorem Sound.writeRelations_emits (h : r.Sound out e) (thread : ThreadId) (kind : BufferKind)
    (duringDrain : Bool) (he : Fallible.runOn (leaseEpoch duringDrain) r = (.ok e, r))
    (relations : List Relation) :
    Ends (Recorder.writeRelations thread kind duringDrain relations) r fun answer r' =>
      Refused answer ∨ r.Emits [⟨.of kind thread,
        (relationEntries thread kind duringDrain relations r).entries⟩] r' := by
  refine (h.writeRelations_shifts thread kind duringDrain he relations).mono ?_
  rintro answer r' hpost
  exact hpost.imp id fun ⟨_, hl, hqueue, hall⟩ => .next hl hqueue hall (.refl r')

/-- The checkpoints of the static constants and of the threads. -/
def staticAndThreadEmissions (r : Recorder) : List Emission :=
  ⟨.global, (r.staticEntries recorderThread).entries⟩ ::
    match Fallible.runOn (writeStatics recorderThread) r with
    | (.ok _, r) => [⟨.global, (r.threadEntries recorderThread).entries⟩]
    | (.error _, _) => []

theorem lane_of_mem_staticAndThreadEmissions {emission : Emission}
    (h : emission ∈ r.staticAndThreadEmissions) : emission.lane = .global := by
  unfold staticAndThreadEmissions at h
  rcases List.mem_cons.1 h with rfl | h
  · rfl
  · split at h
    · rw [List.mem_singleton.1 h]
    · cases h

theorem Sound.writeStaticsAndThreads_emits (h : r.Sound out r.epoch.current) :
    Ends Recorder.writeStaticsAndThreads r fun answer r' => Refused answer ∨
      r.Emits r.staticAndThreadEmissions r' := by
  unfold Recorder.writeStaticsAndThreads staticAndThreadEmissions
  have hstatics := (h.writeStatics recorderThread).and (Ends.after (Fallible.runOn_get r)
    (h.writeRelations_emits recorderThread .global false rfl r.statics))
  rcases hrun : Fallible.runOn (Recorder.writeStatics recorderThread) r with ⟨fault | n, r₁⟩
  · exact Ends.stop hrun ((hstatics.run_eq hrun).2.imp Refused.throw id)
  · have hpost := hstatics.run_eq hrun
    have ht := hpost.1.resolve_left (not_refused_ok _)
    have hfirst := hpost.2.resolve_left (not_refused_ok _)
    have hcurrent : r₁.epoch.current = r.epoch.current := by rw [ht.epoch]
    have hthreads : Ends (Recorder.writeThreads recorderThread) r₁ _ :=
      Ends.after (Fallible.runOn_get r₁) (Sound.writeRelations_emits (hcurrent.symm ▸ ht.sound)
        recorderThread .global false rfl (ThreadInfo.table r₁.host.liveThreads))
    refine Ends.after hrun (hthreads.bind ?_ ?_)
    · rintro m r' hpost
      exact Ends.of_run (Fallible.runOn_pure _ _)
        (.inr (hfirst.trans (hpost.resolve_left (not_refused_ok _))))
    · rintro fault r' hpost
      exact hpost.imp Refused.throw hfirst.trans

theorem Sound.writeTypeSet_emits (h : r.Sound out e) (duringDrain : Bool)
    (he : Fallible.runOn (leaseEpoch duringDrain) { r with typeSet := [] } =
      (.ok e, { r with typeSet := [] })) :
    Ends (Recorder.writeTypeSet duringDrain) r fun answer r' => Refused answer ∨
      r.Emits [⟨.global, (r.typeSetEntries duringDrain).entries⟩] r' := by
  unfold Recorder.writeTypeSet
  refine Ends.after (Fallible.runOn_get r) (Ends.after (Fallible.runOn_set _ _)
    ((h.withoutTypeSet.writeRelations_emits recorderThread .global duringDrain he
      r.typeSet.relations).mono ?_))
  rintro answer r' hpost
  exact hpost.imp id fun hemits => hemits.alike_left rfl

/-- The checkpoint that describes one thread. -/
def checkpointEmission (thread : ThreadInfo) (id : Option ThreadId) (mounted : Option ThreadInfo)
    (r : Recorder) : Emission where
  lane := if mounted.isSome then .virtual else .carrier thread.id
  entries := (r.checkpointEntries thread id mounted).entries

theorem Sound.writeCheckpoint_emits (h : r.Sound out r.epoch.current) (thread : ThreadInfo)
    (id : Option ThreadId) (mounted : Option ThreadInfo) :
    Ends (Recorder.writeCheckpoint thread id mounted) r fun answer r' => Refused answer ∨
      r.Emits [r.checkpointEmission thread id mounted] r' := by
  unfold Recorder.writeCheckpoint checkpointEmission checkpointEntries
  cases mounted with
  | some v => exact h.writeRelations_emits v.id .virtualThreadLocal false rfl _
  | none => exact h.writeRelations_emits thread.id .threadLocal false rfl _

/-! ## 3. The first half of a drain -/

/-- **The first half of a drain**: some checkpoints are written, and then all that waits is
detached, or nothing is. -/
def Collects (first : Action Detached) (emissions : List Emission) (r : Recorder)
    (out : List Buffer) (e : Epoch) : Prop :=
  Ends first r fun answer r' => Refused answer ∨
    match answer with
    | .error _ => r.Emits emissions r'
    | .ok d => (∃ s, r'.sink = some s) ∧ Detached.Sorted d.parts ∧ r'.Sound (d.buffers ++ out) e ∧
        (∀ b ∈ r'.pooled, b.isEmpty = true) ∧
        ∃ r₁, r.Emits emissions r₁ ∧ r₁.Sound out e ∧ laden d.buffers = laden r₁.pooled

theorem Sound.detachForWrite_collects (h : r.Sound out r.epoch.current)
    (hb : r.epoch.barrier = none) :
    Collects Recorder.detachForWrite [] r out r.epoch.current := by
  refine (Sound.detachForWrite h hb).mono ?_
  rintro (fault | d) r' hpost
  · obtain ⟨rfl, -⟩ := hpost
    exact .inr (.refl r')
  · obtain ⟨-, ⟨s, hs⟩, hk, hladen, hempty, ht⟩ := hpost
    exact .inr ⟨⟨s, ht.prepared.sink.trans hs⟩, hk, ht.sound, hempty, r, .refl r, h, hladen⟩

/-- The constants that go on waiting are one checkpoint before the drain. -/
theorem Sound.detachForFlush_collects (h : r.Sound out r.epoch.current)
    (hb : r.epoch.barrier = none) :
    Collects Recorder.detachForFlush [⟨.global, r.waitingEntries.entries⟩] r out
      r.epoch.current := by
  unfold Recorder.detachForFlush
  refine Ends.after (Fallible.runOn_get r) ?_
  refine ((h.writeRelations recorderThread .global false rfl r.typeSet.relations).and
    (h.writeRelations_emits recorderThread .global false rfl r.typeSet.relations)).bind ?_ ?_
  · rintro n r₁ ⟨htrades, hemits⟩
    have ht := htrades.resolve_left (not_refused_ok _)
    have hemits := hemits.resolve_left (not_refused_ok _)
    have hwrite := Sound.detachForWrite_collects (ht.epoch ▸ ht.sound) (by rw [ht.epoch, hb])
    rw [ht.epoch] at hwrite
    refine Ends.mono hwrite ?_
    rintro (fault | d) r' hpost
    · exact hpost.imp id hemits.trans
    · obtain ⟨hsink, hk, hs, hempty, r₂, hemits₂, hs₂, hladen⟩ :=
        hpost.resolve_left (not_refused_ok _)
      exact .inr ⟨hsink, hk, hs, hempty, r₂, hemits.trans hemits₂, hs₂, hladen⟩
  · rintro fault r' ⟨-, hemits⟩
    exact hemits.imp Refused.throw id

/-- The checkpoints of a rotation, if it is not refused. -/
def rotationEmissions (r : Recorder) : List Emission :=
  if r.aborted || r.sink.isNone then []
  else
    r.staticAndThreadEmissions ++
      match Fallible.runOn writeStaticsAndThreads r with
      | (.ok _, r) =>
        [⟨.global, ((r.moveEpoch EpochController.raise).typeSetEntries true).entries⟩]
      | (.error _, _) => []

theorem rotationEmissions_of_error {fault : Fault} {r₁ : Recorder}
    (h : r.aborted = false ∧ r.sink ≠ none)
    (hfirst : Fallible.runOn writeStaticsAndThreads r = (.error fault, r₁)) :
    r.rotationEmissions = r.staticAndThreadEmissions := by
  simp [rotationEmissions, h.1, Option.isNone_iff_eq_none, h.2, hfirst]

theorem rotationEmissions_of_ok {n : Nat} {r₁ : Recorder} (h : r.aborted = false ∧ r.sink ≠ none)
    (hfirst : Fallible.runOn writeStaticsAndThreads r = (.ok n, r₁)) :
    r.rotationEmissions = r.staticAndThreadEmissions ++
      [⟨.global, ((r₁.moveEpoch EpochController.raise).typeSetEntries true).entries⟩] := by
  simp [rotationEmissions, h.1, Option.isNone_iff_eq_none, h.2, hfirst]

theorem Trades.retireTypeSet_emits {r₁ : Recorder} {p : Published}
    (h : Trades r out r₁ out r.epoch.current p) :
    Ends (Recorder.writeTypeSet true) (r₁.moveEpoch EpochController.raise) fun answer r₂ =>
      Refused answer ∨ r₁.Emits
        [⟨.global, ((r₁.moveEpoch EpochController.raise).typeSetEntries true).entries⟩] r₂ := by
  refine ((h.sound.moveEpoch EpochController.raise).writeTypeSet_emits true
    (runOn_leaseEpoch_raise h.epoch)).mono ?_
  rintro answer r₂ hpost
  exact hpost.imp id fun hemits => hemits.alike_left (visible_moveEpoch r₁ EpochController.raise)

/-- **Constants and threads are two checkpoints before the drain**, and the waiting constants one
more. -/
theorem Sound.detachForRotation_collects (h : r.Sound out r.epoch.current)
    (hb : r.epoch.barrier = none) :
    Collects Recorder.detachForRotation r.rotationEmissions r out r.epoch.current := by
  refine ((h.detachForRotation hb).and h.firstHalf).mono ?_
  rintro answer r' ⟨hpost, hcase⟩
  cases hcase with
  | refused hno =>
    rw [rotationEmissions, if_pos (by rcases hno with hn | hn <;> simp [hn])]
    exact .inr (.refl r)
  | tables hready hfirst =>
    rw [rotationEmissions_of_error hready hfirst]
    exact (h.writeStaticsAndThreads_emits.run_eq hfirst).imp Refused.throw id
  | types hready hfirst ht hlast =>
    rw [rotationEmissions_of_ok hready hfirst]
    have hemits := (h.writeStaticsAndThreads_emits.run_eq hfirst).resolve_left (not_refused_ok _)
    refine (ht.retireTypeSet_emits.run_eq hlast).imp Refused.throw ?_
    intro hemits'
    exact hemits.trans (hemits'.trans (.done (visible_moveEpoch _ _)))
  | detached hready hfirst ht hlast ht' hdetach =>
    rw [rotationEmissions_of_ok hready hfirst]
    have hemits := (h.writeStaticsAndThreads_emits.run_eq hfirst).resolve_left (not_refused_ok _)
    have hemits' := (ht.retireTypeSet_emits.run_eq hlast).resolve_left (not_refused_ok _)
    obtain ⟨_, ⟨⟩, -, hladen, -, -⟩ := ht'.sound.detach.run_eq hdetach
    obtain ⟨hp, ⟨s, hs⟩, hk, hsound, -, hempty, -⟩ := hpost.resolve_left (not_refused_ok _)
    exact .inr ⟨⟨s, hp.sink.trans hs⟩, hk, hsound, hempty, _, hemits.trans hemits', ht'.sound,
      hladen⟩

/-! ## 4. Whole passes -/

/-- **Unless a call of the sink is refused, an emission sends all that was detached.** -/
theorem Sound.emit_all {d : Detached} {s : Sink} (h : r.Sound (d.buffers ++ out) e)
    (hk : Detached.Sorted d.parts) (hs : r.sink = some s) :
    Ends (Recorder.emit d) r fun answer _ => (∃ f, answer = .error (.sink f)) ∨
      s.granted (laden d.buffers).length = (laden d.buffers).length := by
  have hdelivers := s.delivers d.buffers
  refine (h.husks.emit hk hs).mono ?_
  rintro answer r' ⟨rfl, -⟩
  cases hf : (s.deliver d.buffers).1.failure with
  | some fault =>
    obtain ⟨f, rfl⟩ := hdelivers.fault fault hf
    exact .inl ⟨f, by rw [Emitted.answer, hf]⟩
  | none =>
    refine .inr (Nat.le_antisymm (Sink.acceptedFrom_le _ _ _) (Nat.not_lt.1 fun hless => ?_))
    have hsome := hdelivers.failure.2 (.inl hless)
    rw [hf] at hsome
    cases hsome

/-- **A pass sends all that it detaches**, unless the sink refuses a call.  It takes of each lane
all that waits there once the checkpoints of the drain are written, and leaves nothing behind. -/
theorem Collects.emit {first : Action Detached} (h : Collects first emissions r out e) :
    Ends (do let d ← first; Recorder.emit d) r fun answer r' =>
      Refused answer ∨ (∃ f, answer = .error (.sink f)) ∨
        match (Fallible.runOn first r).1 with
        | .error _ => r.Emits emissions r'
        | .ok d => (∃ r₁, r.Emits emissions r₁ ∧ ∀ ℓ, d.on ℓ = (r₁.line ℓ).all) ∧
            (∀ ℓ, r'.line ℓ = ⟨[], []⟩) ∧ r.sent first = d.sections.flatten ∧
            r.unsent first = [] := by
  rcases hrun : Fallible.runOn first r with ⟨fault | d, r₂⟩
  · exact Ends.stop hrun ((h.run_eq hrun).imp Refused.throw .inr)
  · obtain ⟨⟨s, hs⟩, hk, hs₂, hempty, r₁, hemits, hs₁, hladen⟩ :=
      (h.run_eq hrun).resolve_left (not_refused_ok _)
    refine Ends.after hrun (((hs₂.husks.emit hk hs).and (hs₂.emit_all hk hs)).mono ?_)
    rintro answer r' ⟨⟨-, hs', honly, -⟩, hall⟩
    refine .inr (hall.imp id fun hall => ⟨⟨r₁, hemits, hs₁.on_eq hk hladen⟩, ?_, ?_, ?_⟩)
    · refine hs'.line_of_empty ?_
      rw [honly.pooled]
      exact hempty
    · rw [sent, hrun]
      simp only [hs, Option.toList_some, List.flatMap_cons, List.flatMap_nil, List.append_nil]
      rw [sentOf, hall, List.take_length, flatMap_laden fun _ => Buffer.isEmpty_iff.1,
        d.sections_eq]
      refine (flatten_entries fun b hb => hs₂.isRow ?_).symm
      exact List.mem_append_right _ (List.mem_append_left _ hb)
    · rw [unsent, hrun]
      simp [hs, hall]

/-- **A drain fails and sends nothing, or leaves nothing**, whatever the sink refuses. -/
theorem Collects.fails_or_empties {first : Action Detached} (h : Collects first emissions r out e) :
    Ends (do let d ← first; Recorder.emit d) r fun answer r' =>
      ((∃ fault, answer = .error fault) ∧ r.sent first = []) ∨
        ∀ b ∈ r'.pooled, b.isEmpty = true := by
  rcases hrun : Fallible.runOn first r with ⟨fault | d, r₁⟩
  · exact Ends.stop hrun (.inl ⟨⟨_, rfl⟩, by rw [sent, hrun]⟩)
  · obtain ⟨⟨s, hs⟩, hk, hs₁, hempty, -⟩ := (h.run_eq hrun).resolve_left (not_refused_ok d)
    refine Ends.after hrun ((hs₁.husks.emit hk hs).mono ?_)
    rintro answer r' ⟨-, -, honly, -⟩
    exact .inr (honly.pooled ▸ hempty)

theorem Collects.leaves {first : Action Detached} (h : Collects first emissions r out e) :
    Ends (do let d ← first; Recorder.emit d) r fun _ r' =>
      r.sent first = [] ∨ ∀ b ∈ r'.pooled, b.isEmpty = true :=
  h.fails_or_empties.mono fun _ _ => Or.imp_left And.right

theorem Collects.unsent_eq_nil {first : Action Detached} (h : Collects first emissions r out e) :
    Ends (do let d ← first; Recorder.emit d) r fun answer _ =>
      Refused answer ∨ (∃ f, answer = .error (.sink f)) ∨ r.unsent first = [] := by
  refine h.emit.mono fun answer r' hpost => hpost.imp id fun hpost => hpost.imp id fun hpost => ?_
  rcases hrun : Fallible.runOn first r with ⟨fault | d, r₁⟩
  · rw [unsent, hrun]
  · rw [hrun] at hpost
    exact hpost.2.2.2

end Recorder

end TraceRecorder
