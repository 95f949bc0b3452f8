/-
# A rotation completes its chunk

A rotation adds three checkpoints to the global pool before it detaches anything: the static
constants, the threads and the waiting constants.  Each of them is queued behind all that was
pooled before, or it was dropped and counted (`Gains`).  Where the sink accepts every call, all of
that ends up in the chunk, in front of what carrier and virtual threads had pooled.

* `Sound.writeRelations_gains`: one checkpoint of the recorder itself;
* `Sound.detachForRotation_gains`: nothing can go wrong before the sink is used;
* `Sound.rotate_getsThrough`, `Sound.rotate_completes`: what a rotation adds to the chunk, and what
  it leaves behind (`Completes`).
-/
import TraceRecorder.Proofs.Recorder.Drops
import TraceRecorder.Proofs.Recorder.Order
import TraceRecorder.Proofs.Tables

namespace TraceRecorder

open Fallible (Ends Keeps)

namespace Recorder

variable {r r' r'' : Recorder} {out : List Buffer} {e : Epoch}

/-! ## 1. Checkpoints in the global pool -/

/-- **Some checkpoints are queued in the global pool**, each of which has its relations unless a
checkpoint was dropped.  Drains see nothing else of it. -/
structure Gains (r : Recorder) (parts : List (List Relation × List Bytes)) (r' : Recorder) :
    Prop where
  queued : r.Shifts .global ((r.line .global).push (parts.flatMap Prod.snd)) r'
  dropped : r.score.1 ≤ r'.score.1
  spans : r'.score.1 = r.score.1 →
    ∀ part ∈ parts, Entry.Spans part.2 (part.1.filter fun relation => !relation.isEmpty)
  rotations : r'.score.2 = r.score.2

namespace Gains

variable {parts parts' : List (List Relation × List Bytes)}

theorem of_visible_eq (hv : r'.visible = r.visible) (hs : r'.score = r.score) :
    Gains r [] r' where
  queued := by
    rw [List.flatMap_nil, Line.push_nil]
    exact .of_visible_eq hv .global
  dropped := Nat.le_of_eq (congrArg Prod.fst hs).symm
  spans _ part hp := absurd hp List.not_mem_nil
  rotations := congrArg Prod.snd hs

/-- **Later checkpoints are queued behind earlier ones.** -/
theorem trans (h : Gains r parts r') (h' : Gains r' parts' r'') :
    Gains r (parts ++ parts') r'' where
  queued := by
    have hq := h'.queued
    rw [h.queued.line, Line.push_push] at hq
    rw [List.flatMap_append]
    exact h.queued.trans hq
  dropped := Nat.le_trans h.dropped h'.dropped
  spans hd part hp := by
    have hd₁ := h.dropped
    have hd₂ := h'.dropped
    rcases List.mem_append.1 hp with hp | hp
    · exact h.spans (by omega) part hp
    · exact h'.spans (by omega) part hp
  rotations := h'.rotations.trans h.rotations

end Gains

/-- **A checkpoint of relations in the global pool** meets no fault while its sizes are modest:
there is memory for whatever the pool allows.  Either it is dropped, or its entries are queued
behind all others of the pool, and they are a checkpoint of just these relations. -/
theorem Sound.writeRelations_gains (h : r.Sound out e) (ha : r.aborted = false)
    (thread : ThreadId) (hm : r.options.Modest .global) (duringDrain : Bool)
    (he : Fallible.runOn (leaseEpoch duringDrain) r = (.ok e, r)) {relations : List Relation}
    (hs : ∀ relation ∈ relations, relation.encode.length ≤ Memory.addressable) :
    Ends (Recorder.writeRelations thread .global duringDrain relations) r fun answer r' =>
      (∃ n, answer = .ok n) ∧
      Trades r out r' out e (relationEntries thread .global duringDrain relations r) ∧
      r.Gains [(relations,
        (relationEntries thread .global duringDrain relations r).entries)] r' := by
  refine ((h.writeRelations_scored ha thread hm duringDrain he hs).and
    (h.writeRelations_queued thread (by decide) duringDrain he relations)).mono ?_
  rintro _ r' ⟨⟨⟨n, rfl⟩, ht, hscore⟩, hqueued⟩
  have hqueued := hqueued.resolve_left (not_refused_ok n)
  refine ⟨⟨n, rfl⟩, ht, by rwa [List.flatMap_singleton], ?_, ?_, ?_⟩
  · rcases hscore with hd | ⟨hd, -⟩
    · rw [hd]
      exact Nat.le_succ _
    · exact Nat.le_of_eq (congrArg Prod.fst hd).symm
  · rcases hscore with hd | ⟨-, hspans⟩
    · intro hsame
      rw [hd] at hsame
      exact absurd hsame (Nat.succ_ne_self _)
    · intro _ part hp
      rw [List.mem_singleton.1 hp]
      exact hspans
  · rcases hscore with hd | ⟨hd, -⟩ <;> exact (congrArg Prod.snd hd :)

/-- **The static constants and the threads** are two checkpoints, the latter behind the former. -/
theorem Sound.writeStaticsAndThreads_gains (h : r.Sound out r.epoch.current)
    (ha : r.aborted = false) (hm : r.options.Modest .global)
    (hs : ∀ relation ∈ r.statics ++ ThreadInfo.table r.host.liveThreads,
      relation.encode.length ≤ Memory.addressable) :
    Ends Recorder.writeStaticsAndThreads r fun answer r' => (∃ n, answer = .ok n) ∧
      ∃ statics threads,
        r.Gains [(r.statics, statics), (ThreadInfo.table r.host.liveThreads, threads)] r' := by
  have hstatics : Ends (Recorder.writeStatics recorderThread) r _ :=
    Ends.after (Fallible.runOn_get r) (h.writeRelations_gains ha recorderThread hm false rfl
      fun relation hr => hs relation (List.mem_append_left _ hr))
  unfold Recorder.writeStaticsAndThreads
  refine hstatics.bind ?_ ?_
  · rintro n r₁ ⟨-, ht, hgains⟩
    have hepoch : r₁.epoch = r.epoch := ht.epoch
    have hhost : r₁.host = r.host := (congrArg Recorder.host ht.surroundings :)
    have hthreads : Ends (Recorder.writeThreads recorderThread) r₁ _ :=
      Ends.after (Fallible.runOn_get r₁) (ht.sound.writeRelations_gains
        ((aborted_eq_of_surroundings_eq ht.surroundings).trans ha) recorderThread
        (ht.prepared.options ▸ hm) false (by rw [← hepoch]; rfl)
        fun relation hr => hs relation (List.mem_append_right _ (hhost ▸ hr)))
    refine hthreads.bind ?_ ?_
    · rintro m r₂ ⟨-, -, hgains'⟩
      rw [hhost] at hgains'
      exact Ends.of_run (Fallible.runOn_pure _ _) ⟨⟨_, rfl⟩, _, _, hgains.trans hgains'⟩
    · rintro _ _ ⟨⟨_, hok⟩, -⟩
      cases hok
  · rintro _ _ ⟨⟨_, hok⟩, -⟩
    cases hok

/-! ## 2. Before the sink is used -/

/-- **The waiting constants are one checkpoint more.** -/
theorem Sound.writeTypeSet_gains (h : r.Sound out e) (ha : r.aborted = false)
    (hm : r.options.Modest .global) (duringDrain : Bool)
    (he : Fallible.runOn (leaseEpoch duringDrain) { r with typeSet := [] } =
      (.ok e, { r with typeSet := [] }))
    (hs : ∀ relation ∈ r.typeSet.relations, relation.encode.length ≤ Memory.addressable) :
    Ends (Recorder.writeTypeSet duringDrain) r fun answer r' =>
      (∃ n, answer = .ok n) ∧ ∃ types, r.Gains [(r.typeSet.relations, types)] r' := by
  have hbefore : r.Gains [] { r with typeSet := [] } := .of_visible_eq rfl rfl
  refine Ends.after (Fallible.runOn_get r) (Ends.after (Fallible.runOn_set _ _)
    ((h.withoutTypeSet.writeRelations_gains ha recorderThread hm duringDrain he hs).mono ?_))
  rintro answer r' ⟨hok, -, hgains⟩
  exact ⟨hok, _, hbefore.trans hgains⟩

/-- Under the barrier, too, behind other checkpoints. -/
theorem Trades.retireTypeSet_gains {r₁ : Recorder} {p : Published}
    (h : Trades r out r₁ out r.epoch.current p) (ha : r.aborted = false)
    (hm : r.options.Modest .global)
    (hs : ∀ relation ∈ r.typeSet.relations, relation.encode.length ≤ Memory.addressable) :
    Ends (Recorder.writeTypeSet true) (r₁.moveEpoch EpochController.raise) fun answer r₂ =>
      (∃ n, answer = .ok n) ∧ ∃ types, r₁.Gains [(r.typeSet.relations, types)] r₂ := by
  have ha₁ : r₁.aborted = false := (aborted_eq_of_surroundings_eq h.surroundings).trans ha
  have hm₁ : r₁.options.Modest .global := h.prepared.options ▸ hm
  have htypes : r₁.typeSet = r.typeSet := (congrArg Recorder.typeSet h.surroundings :)
  have hraised : (r₁.moveEpoch EpochController.raise).Sound out r.epoch.current :=
    h.sound.alike (fun kind => by cases kind <;> rfl) rfl rfl rfl
  have hbefore : r₁.Gains [] (r₁.moveEpoch EpochController.raise) := .of_visible_eq rfl rfl
  rw [← htypes] at hs ⊢
  refine (hraised.writeTypeSet_gains ha₁ hm₁ true (runOn_leaseEpoch_raise h.epoch) hs).mono ?_
  rintro answer r₂ ⟨hok, types, hgains⟩
  exact ⟨hok, types, hbefore.trans hgains⟩

def rotationRelations (r : Recorder) : List Relation :=
  r.statics ++ (ThreadInfo.table r.host.liveThreads ++ r.typeSet.relations)

/-- The recorder after a rotation, apart from its pools, counters and sink. -/
def rotated (r : Recorder) : Recorder :=
  (({ r with typeSet := [] } : Recorder).moveEpoch EpochController.shifted).notifyThreads

/-- **The first half of a rotation meets no fault**, and detaches all that was pooled together with
the three checkpoints. -/
theorem Sound.detachForRotation_gains (h : r.Sound out r.epoch.current)
    (hb : r.epoch.barrier = none) (ha : r.aborted = false) (hsink : r.sink.isSome = true)
    (hm : r.options.Modest .global)
    (hs : ∀ relation ∈ r.rotationRelations, relation.encode.length ≤ Memory.addressable) :
    Ends Recorder.detachForRotation r fun answer r' => ∃ d n statics threads types r₁ r₂,
      answer = .ok d ∧ Fallible.runOn Recorder.writeStaticsAndThreads r = (.ok n, r₁) ∧
      r.Gains [(r.statics, statics), (ThreadInfo.table r.host.liveThreads, threads)] r₁ ∧
      r₁.Gains [(r.typeSet.relations, types)] r₂ ∧ r₂.Sound out r.epoch.current ∧
      laden d.buffers = laden r₂.pooled ∧ r'.score = (r₂.score.1, r₂.score.2 + 1) ∧
      r'.surroundings = r.rotated.surroundings := by
  have hsfirst : ∀ relation ∈ r.statics ++ ThreadInfo.table r.host.liveThreads,
      relation.encode.length ≤ Memory.addressable := fun relation hr =>
    hs relation (by
      rw [rotationRelations, ← List.append_assoc]
      exact List.mem_append_left _ hr)
  have hstypes : ∀ relation ∈ r.typeSet.relations, relation.encode.length ≤ Memory.addressable :=
    fun relation hr => hs relation (List.mem_append_right _ (List.mem_append_right _ hr))
  have hfirst := h.writeStaticsAndThreads_gains ha hm hsfirst
  refine h.firstHalf.mono ?_
  rintro answer r' hcase
  cases hcase with
  | refused hno =>
    rcases hno with hno | hno
    · rw [ha] at hno
      cases hno
    · rw [hno] at hsink
      cases hsink
  | tables hready hrun =>
    obtain ⟨⟨_, hok⟩, -⟩ := hfirst.run_eq hrun
    cases hok
  | types hready hrun ht hrun' =>
    obtain ⟨⟨_, hok⟩, -⟩ := (ht.retireTypeSet_gains ha hm hstypes).run_eq hrun'
    cases hok
  | @detached n m d r₁ r₂ r₃ hready hrun ht hrun' ht' hdetach =>
    obtain ⟨-, statics, threads, hgains⟩ := hfirst.run_eq hrun
    obtain ⟨-, types, hgains'⟩ := (ht.retireTypeSet_gains ha hm hstypes).run_eq hrun'
    obtain ⟨_, ⟨⟩, -, hladen, -, ht₃⟩ := ht'.sound.detach.run_eq hdetach
    have hscore : r₃.score = r₂.score :=
      ((keeps_score (keeps_detach r.epoch.current)).ends r₂).run_eq hdetach
    refine ⟨d, n, statics, threads, types, r₁, r₂, rfl, hrun, hgains, hgains', ht'.sound, hladen,
      ?_, ?_⟩
    · rw [← hscore]
      rfl
    · have hsur : r₃.surroundings =
          ({ r.moveEpoch EpochController.raise with typeSet := [] } : Recorder).surroundings :=
        (ht₃.surroundings.trans ht'.surroundings).trans
          (congrArg (fun r => { r.moveEpoch EpochController.raise with typeSet := [] })
            ht.surroundings)
      have hdown := congrArg (fun r =>
        ((r.moveEpoch EpochController.flip).moveEpoch EpochController.lower).notifyThreads) hsur
      refine hdown.trans ?_
      show ({ r with
        typeSet := []
        epoch := r.epoch.raise.flip.lower } : Recorder).notifyThreads.surroundings = _
      rw [EpochController.lower_flip_raise hb]
      rfl

/-! ## 3. The bytes of a chunk -/

end Recorder

/-- The bytes that a drain finds in a pool. -/
def Space.content (s : Space) : Bytes := s.pooled.flatMap fun b => b.committed.bytes

namespace Recorder

variable {r r' : Recorder} {out : List Buffer} {e : Epoch}

theorem flatMap_pooled (r : Recorder) :
    r.pooled.flatMap (fun b => b.committed.bytes) =
      r.global.content ++ r.threadLocal.content ++ r.virtualThreadLocal.content := by
  simp [pooled, BufferKind.all, space, Space.content]

theorem Sound.flatten_queue (h : r.Sound out e) :
    (r.line .global).queue.flatten = r.global.content := by
  have hbound : r.global.boundBuffers = [] := h.boundBuffers_eq_nil .global (by decide)
  have hfull : r.global.full.reverse.filter (Lane.owns .global) = r.global.full.reverse :=
    List.filter_eq_self.2 fun _ _ => rfl
  rw [Space.content, Space.pooled, hbound, List.append_nil, ← flatten_entries, ← hfull]
  · rfl
  · intro b hb
    refine h.isRow (List.mem_append_left _ ?_)
    rw [h.pooled_eq]
    exact List.mem_append_left _ hb

/-- **The bytes of some checkpoints come last in the global pool**, and the other pools have their
own. -/
theorem Gains.flatMap_pooled {parts : List (List Relation × List Bytes)}
    (hg : r.Gains parts r') (h : r.Sound out e) (h' : r'.Sound out e) :
    r'.pooled.flatMap (fun b => b.committed.bytes) =
      r.global.content ++ (parts.flatMap Prod.snd).flatten ++ r.threadLocal.content ++
        r.virtualThreadLocal.content := by
  have hglobal : r'.global.content = r.global.content ++ (parts.flatMap Prod.snd).flatten := by
    rw [← h'.flatten_queue, ← h.flatten_queue, hg.queued.line, Line.push, List.flatten_append]
  have hpool : ∀ kind, kind ≠ .global → (r'.space kind).content = (r.space kind).content := by
    intro kind hk
    rw [Space.content, Space.pooled_eq_of_visible_eq (hg.queued.pools kind hk), Space.content]
  have hthread : r'.threadLocal.content = r.threadLocal.content := hpool .threadLocal (by decide)
  have hvirtual : r'.virtualThreadLocal.content = r.virtualThreadLocal.content :=
    hpool .virtualThreadLocal (by decide)
  rw [Recorder.flatMap_pooled, hglobal, hthread, hvirtual]

/-! ## 4. Rotations -/

/-- **What a chunk gains by a complete rotation**: all that was pooled, and behind the global
entries three checkpoints.  The first one has the constants of the static relations, in the order of
registration; the second one all live threads and each of their groups once, under a name of one of
its threads; the third one the constants that waited.  Where there is nothing to tell, there is no
checkpoint. -/
structure Completes (r : Recorder) (gained : Bytes) (statics threads types : List Bytes) :
    Prop where
  bytes : gained = r.global.content ++ (statics ++ (threads ++ types)).flatten ++
    r.threadLocal.content ++ r.virtualThreadLocal.content
  spans : Entry.Spans statics (r.statics.filter fun relation => !relation.isEmpty) ∧
    Entry.Spans threads
      ((ThreadInfo.table r.host.liveThreads).filter fun relation => !relation.isEmpty) ∧
    Entry.Spans types (r.typeSet.relations.filter fun relation => !relation.isEmpty)
  statics : Entry.walk statics.flatten = .ok (r.statics.flatMap Relation.constants)
  threads : ∃ groups : Dict UInt64 String, groups.keys.Nodup ∧
    (∀ id, id ∈ groups.keys ↔ ∃ info ∈ r.host.liveThreads, info.groupId = id) ∧
    (∀ group ∈ groups, ∃ info ∈ r.host.liveThreads,
      (info.groupId, info.groupName) = group) ∧
    Entry.walk threads.flatten = .ok
      (r.host.liveThreads.map ThreadInfo.constant ++ groups.map ThreadInfo.groupConstant)
  types : ∃ constants, Entry.walk types.flatten = .ok constants ∧
    constants.Perm (r.typeSet.map PendingConstant.constant)

/-- **What a rotation leaves behind**: the next epoch, and no committed byte in any pool. -/
structure Rotated (r : Recorder) (gained : Bytes) (r' : Recorder) : Prop where
  aborted : r'.aborted = false
  epoch : r'.epoch = r.epoch.shifted
  rotations : r'.stats.rotations = r.stats.rotations + 1
  notices : r'.notifier.seq = r.notifier.seq + 1
  typeSet : r'.typeSet = []
  empty : ∀ kind, ∀ b ∈ (r'.space kind).buffers [], b.used = 0
  chunk : r'.chunk = r.chunk ++ gained
  complete : r'.stats.checkpointsDropped = r.stats.checkpointsDropped →
    ∃ statics threads types, r.Completes gained statics threads types

/-- Checkpoints that were all written complete a chunk. -/
theorem completes_of_spans {gained : Bytes} {statics threads types : List Bytes}
    (hbytes : gained = r.global.content ++ (statics ++ (threads ++ types)).flatten ++
      r.threadLocal.content ++ r.virtualThreadLocal.content)
    (hs : Entry.Spans statics (r.statics.filter fun relation => !relation.isEmpty))
    (ht : Entry.Spans threads
      ((ThreadInfo.table r.host.liveThreads).filter fun relation => !relation.isEmpty))
    (hw : Entry.Spans types (r.typeSet.relations.filter fun relation => !relation.isEmpty)) :
    r.Completes gained statics threads types := by
  refine ⟨hbytes, ⟨hs, ht, hw⟩, ?_, ⟨ThreadInfo.groups r.host.liveThreads, ?_, ?_, ?_, ?_⟩,
    r.typeSet.relations.flatMap Relation.constants, ?_, r.typeSet.perm_constants⟩
  · rw [hs.walk, Relation.flatMap_constants_filter]
  · exact (ThreadInfo.ordered_groups _).nodup_keys
  · exact fun id => ThreadInfo.mem_keys_groups
  · rintro ⟨id, name⟩ hgroup
    have hfound := (ThreadInfo.ordered_groups _).find?_of_mem hgroup
    rw [ThreadInfo.find?_groups, Option.map_eq_some_iff] at hfound
    obtain ⟨info, hinfo, rfl⟩ := hfound
    have hid : info.groupId = id := by simpa using List.find?_some hinfo
    exact ⟨info, List.mem_of_find?_eq_some hinfo, by rw [hid]⟩
  · rw [ht.walk, Relation.flatMap_constants_filter, ThreadInfo.constants_table]
  · rw [hw.walk, Relation.flatMap_constants_filter]

theorem keeps_score_emit (d : Detached) : Keeps score (emit d) :=
  (keeps_emit d).coarser fun _ => rfl

theorem keeps_score_write : Keeps score write := keeps_write.coarser fun _ => rfl

/-- **What a rotation does that gets through.**  The tables of constants and threads are queued, and
then the waiting constants; all that is pooled then is sent, and the epoch is retired. -/
structure GetsThrough (r r₁ r₂ : Recorder) (statics threads types : List Bytes) (gained : Bytes)
    (r' : Recorder) : Prop where
  gainsTables : r.Gains [(r.statics, statics), (ThreadInfo.table r.host.liveThreads, threads)] r₁
  gainsTypes : r₁.Gains [(r.typeSet.relations, types)] r₂
  bytes : gained = r.global.content ++ (statics ++ (threads ++ types)).flatten ++
    r.threadLocal.content ++ r.virtualThreadLocal.content
  sound : r'.Sound [] r.epoch.current
  chunk : r'.chunk = r.chunk ++ gained
  score : r'.score = (r₂.score.1, r₂.score.2 + 1)
  surroundings : ∃ s, r'.surroundings = (r.rotated.withSink s).surroundings
  empty : ∀ b ∈ r'.pooled, b.isEmpty = true

/-- **A rotation gets through**, while nobody holds a buffer and the sink accepts every call. -/
theorem Sound.rotate_getsThrough (h : r.Sound [] r.epoch.current) (hb : r.epoch.barrier = none)
    (ha : r.aborted = false) {s : Sink} (hsink : r.sink = some s) (hr : s.Reliable)
    (hm : r.options.Modest .global)
    (hs : ∀ relation ∈ r.rotationRelations, relation.encode.length ≤ Memory.addressable) :
    Ends Recorder.rotate r fun answer r' => ∃ n r₁ r₂ statics threads types, ∃ gained : Bytes,
      Fallible.runOn Recorder.writeStaticsAndThreads r = (.ok n, r₁) ∧
      answer = .ok gained.length ∧ r.GetsThrough r₁ r₂ statics threads types gained r' := by
  have hfirst := (h.detachForRotation hb).and
    (h.detachForRotation_gains hb ha (by rw [hsink]; rfl) hm hs)
  rcases hrun : Fallible.runOn Recorder.detachForRotation r with ⟨answer, r₃⟩
  obtain ⟨hpost, d, n, statics, threads, types, r₁, r₂, rfl, htables, hgains, hgains', hs₂, hladen,
    hscore, hsur⟩ := hfirst.run_eq hrun
  obtain ⟨hp, -, hk, hs₃, -, hempty, hsettles⟩ := hpost.resolve_left (not_refused_ok d)
  have hkept : Ends (do let d ← Recorder.detachForRotation; Recorder.emit d) r
      fun _ r' => r'.score = r₃.score := Ends.after hrun ((keeps_score_emit d).ends r₃)
  refine ((ends_drain hrun hs₃ hk (hp.sink.trans hsink)).and hkept).mono ?_
  rintro answer r' ⟨⟨s', hs', honly, hsettles', hreliable⟩, hscore'⟩
  obtain ⟨-, hanswer, hsent⟩ := hreliable hr
  refine ⟨n, r₁, r₂, statics, threads, types, r.sent Recorder.detachForRotation, htables, ?_,
    hgains, hgains', ?_, hs', (hsettles.thenSent hsettles').chunk, hscore'.trans hscore,
    ⟨s', honly.surroundings.trans (withSink_surroundings_eq hsur s')⟩, honly.pooled ▸ hempty⟩
  · rw [hanswer, hsent, ← usedBytes_eq_length, usedBytes_laden]
  · rw [hsent, hladen, flatMap_laden fun _ => Buffer.isEmpty_iff.1,
      (hgains.trans hgains').flatMap_pooled h hs₂]
    simp

/-- **A rotation completes the chunk**, while nobody holds a buffer and the sink accepts every
call. -/
theorem Sound.rotate_completes (h : r.Sound [] r.epoch.current) (hb : r.epoch.barrier = none)
    (ha : r.aborted = false) {s : Sink} (hsink : r.sink = some s) (hr : s.Reliable)
    (hm : r.options.Modest .global)
    (hs : ∀ relation ∈ r.rotationRelations, relation.encode.length ≤ Memory.addressable) :
    Ends Recorder.rotate r fun answer r' =>
      ∃ gained : Bytes, answer = .ok gained.length ∧ r.Rotated gained r' := by
  refine (h.rotate_getsThrough hb ha hsink hr hm hs).mono ?_
  rintro answer r' ⟨_, r₁, r₂, statics, threads, types, gained, -, hanswer, hthrough⟩
  obtain ⟨s', hsur⟩ := hthrough.surroundings
  refine ⟨gained, hanswer, ?_⟩
  constructor
  · exact (aborted_eq_of_surroundings_eq hsur).trans ha
  · exact epoch_eq_of_surroundings_eq hsur
  · have hrotations : r'.stats.rotations = r₂.score.2 + 1 := congrArg Prod.snd hthrough.score
    rw [hrotations, hthrough.gainsTypes.rotations, hthrough.gainsTables.rotations]
    rfl
  · exact (congrArg (fun r => r.notifier.seq) hsur :)
  · exact (congrArg Recorder.typeSet hsur :)
  · intro kind b hb
    rw [Space.buffers, List.append_nil] at hb
    rcases List.mem_append.1 hb with hb | hb
    · rw [Buffer.used, ((hthrough.sound.pool kind).free b hb).committed]
      rfl
    · refine beq_iff_eq.1 (hthrough.empty b ?_ : b.isEmpty = true)
      refine List.mem_flatMap.2 ⟨kind, by cases kind <;> decide, ?_⟩
      simpa [Space.pooled] using hb
  · exact hthrough.chunk
  · intro hdropped
    have hdropped : r₂.score.1 = r.score.1 :=
      (congrArg Prod.fst hthrough.score).symm.trans hdropped
    have hspans := (hthrough.gainsTables.trans hthrough.gainsTypes).spans hdropped
    refine ⟨statics, threads, types, completes_of_spans hthrough.bytes
      (hspans (r.statics, statics) ?_)
      (hspans (ThreadInfo.table r.host.liveThreads, threads) ?_)
      (hspans (r.typeSet.relations, types) ?_)⟩
    all_goals simp

end Recorder

end TraceRecorder
