/-
# Waiting constants as a reader finds them

Constants that wait are written as one checkpoint, which need not be one entry.  For a reader it is
one segment for each type, types ascending, with the pairs of the type in the order of registration
(`TypeSet.WrittenAs`).  Three operations write them:

* `Sound.writeTypeSet_leaves`: they are queued, and wait no more;
* `Sound.rotate_retires`: they are in the bytes that the rotation appends to the chunk, and wait no
  more;
* `Sound.flushTypeSet_repeats`: they are in the bytes that the drain appends, and still wait.

The checkpoint may be dropped for want of a buffer, and then that is counted.
-/
import TraceRecorder.Proofs.Recorder.Completion
import TraceRecorder.Proofs.Recorder.Tallies

namespace TraceRecorder

open Fallible (Ends Keeps)

/-! ## 1. What a reader finds -/

/-- **The entries are one checkpoint of waiting constants**, or none if nothing waits.  A reader
finds one segment for each type that occurs, types ascending, and there the constants of the type in
the order of registration. -/
structure TypeSet.WrittenAs (s : TypeSet) (es : List Bytes) : Prop where
  spans : Entry.Spans es s.relations
  none : es = [] ↔ s = []
  nested : Entry.AllOf Entry.Nested es.flatten
  types : ∃ types : List UInt64, types.Pairwise (· < ·) ∧
    (∀ typeId, typeId ∈ types ↔ ∃ c ∈ s, c.typeId = typeId) ∧
    Entry.tables es.flatten = types.map fun typeId =>
      (typeId, (s.filter fun c => c.typeId == typeId).map fun c => (c.key, c.value))

/-- **So a reader finds the checkpoint of their relations.** -/
theorem TypeSet.writtenAs_of_spans {s : TypeSet} {es : List Bytes}
    (h : Entry.Spans es s.relations) : s.WrittenAs es where
  spans := h
  none := h.eq_nil_iff.trans s.relations_eq_nil_iff
  nested := h.tables.1
  types := by
    refine ⟨_, pairwise_ascending (s.map PendingConstant.typeId), fun typeId => ?_, ?_⟩
    · rw [mem_ascending, List.mem_map]
    · rw [h.tables.2, TypeSet.relations, List.map_map]
      rfl

namespace Recorder

variable {r r' : Recorder} {out : List Buffer} {e : Epoch}

theorem Gains.writtenAs {s : TypeSet} {es : List Bytes} (h : r.Gains [(s.relations, es)] r')
    (hd : r'.score.1 = r.score.1) : s.WrittenAs es := by
  have hspans := h.spans hd _ (List.mem_singleton.2 rfl)
  rw [s.filter_relations] at hspans
  exact s.writtenAs_of_spans hspans

/-! ## 2. Writing -/

theorem typeSet_writeTypeSet (duringDrain : Bool) (r : Recorder) :
    (Fallible.runOn (writeTypeSet duringDrain) r).2.typeSet = [] :=
  (congrArg typeSet (writerless_writeTypeSet duringDrain r) :)

/-- **The waiting constants are counted as one checkpoint**, unless there are none. -/
theorem Sound.writeTypeSet_counts (h : r.Sound out e) (ha : r.aborted = false)
    (duringDrain : Bool) (he : Fallible.runOn (leaseEpoch duringDrain) { r with typeSet := [] } =
      (.ok e, { r with typeSet := [] }))
    (hs : ∀ relation ∈ r.typeSet.relations, relation.encode.length ≤ Memory.addressable)
    (hfew : r.options.Modest .global ∨ r.typeSet.relations.length < UInt32.size) :
    Ends (Recorder.writeTypeSet duringDrain) r fun answer r' => Refused answer ∨
      (r.typeSet = [] ∧ r.Counts r' 0 0) ∨
      (r.typeSet ≠ [] ∧ (r.Counts r' 1 0 ∨ r.Counts r' 0 1)) := by
  refine Ends.after (Fallible.runOn_get r) (Ends.after (Fallible.runOn_set _ _) ?_)
  by_cases hnone : r.typeSet = []
  · rw [r.typeSet.relations_eq_nil_iff.2 hnone]
    exact .inr (.inl ⟨hnone, rfl, rfl⟩)
  · refine (h.withoutTypeSet.writeRelations_counts ha recorderThread .global duringDrain he hs hfew
      (r.typeSet.exists_nonempty_relation hnone)).mono ?_
    rintro answer r' (hno | ⟨-, hcounts⟩)
    · exact .inl hno
    · exact .inr (.inr ⟨hnone, hcounts.imp (fun h => ⟨h.written, h.dropped⟩)
        fun h => ⟨h.written, h.dropped⟩⟩)

/-- **What is left of waiting constants that were written**: a checkpoint in the global pool. -/
structure LeavesTypeSet (r r' : Recorder) (es : List Bytes) : Prop where
  typeSet : r'.typeSet = []
  queued : r.Shifts .global ((r.line .global).push es) r'
  counted : r'.stats.checkpointsDropped = r.stats.checkpointsDropped →
    r.typeSet.WrittenAs es ∧ r'.stats.checkpointsWritten =
      r.stats.checkpointsWritten + if r.typeSet = [] then 0 else 1

/-- **The waiting constants are queued as one checkpoint**, and wait no more. -/
theorem Sound.writeTypeSet_leaves (h : r.Sound out r.epoch.current) (ha : r.aborted = false)
    (hm : r.options.Modest .global)
    (hs : ∀ relation ∈ r.typeSet.relations, relation.encode.length ≤ Memory.addressable) :
    Ends Recorder.writeTypeSet r fun answer r' =>
      (∃ n, answer = .ok n) ∧ ∃ es, r.LeavesTypeSet r' es := by
  have htypes : Ends Recorder.writeTypeSet r fun _ r' => r'.typeSet = [] :=
    typeSet_writeTypeSet false r
  refine ((h.writeTypeSet_gains ha hm false rfl hs).and
    ((h.writeTypeSet_counts ha false rfl hs (.inl hm)).and htypes)).mono ?_
  rintro _ r' ⟨⟨⟨n, rfl⟩, es, hgains⟩, hcounts, htypes⟩
  have hqueued := hgains.queued
  rw [List.flatMap_singleton] at hqueued
  refine ⟨⟨n, rfl⟩, es, htypes, hqueued, fun hd => ⟨hgains.writtenAs hd, ?_⟩⟩
  rcases hcounts.resolve_left (not_refused_ok n) with ⟨hnone, hcounts⟩ | ⟨hsome, hcounts | hcounts⟩
  · rw [hcounts.written, if_pos hnone]
  · rw [hcounts.written, if_neg hsome]
  · have hdropped := hcounts.dropped
    omega

/-! ## 3. Drains -/

/-- **A drain appends waiting constants to the chunk**, among other bytes. -/
structure AppendsTypeSet (r r' : Recorder) (es : List Bytes) (gained : Bytes) : Prop where
  chunk : r'.chunk = r.chunk ++ gained
  among : ∃ before after, gained = before ++ es.flatten ++ after

/-- **A rotation appends them as entries of the epoch that it retires**, and they wait no more. -/
structure RetiresTypeSet (r r' : Recorder) (es : List Bytes) (gained : Bytes) : Prop
    extends r.AppendsTypeSet r' es gained where
  typeSet : r'.typeSet = []
  epoch : r'.epoch = r.epoch.shifted
  /-- Whether the checkpoints before this one were dropped is of no account. -/
  whole : ∃ n r₁, Fallible.runOn Recorder.writeStaticsAndThreads r = (.ok n, r₁) ∧
    (r'.stats.checkpointsDropped = r₁.stats.checkpointsDropped → r.typeSet.WrittenAs es)

/-- **A flush appends them in its epoch**, and they still wait. -/
structure RepeatsTypeSet (r r' : Recorder) (es : List Bytes) (gained : Bytes) : Prop
    extends r.AppendsTypeSet r' es gained where
  typeSet : r'.typeSet = r.typeSet
  epoch : r'.epoch = r.epoch
  whole : r'.stats.checkpointsDropped = r.stats.checkpointsDropped → r.typeSet.WrittenAs es

/-- **A rotation retires the waiting constants**, where nobody holds a buffer and the sink accepts
every call. -/
theorem Sound.rotate_retires (h : r.Sound [] r.epoch.current) (hb : r.epoch.barrier = none)
    (ha : r.aborted = false) {s : Sink} (hsink : r.sink = some s) (hr : s.Reliable)
    (hm : r.options.Modest .global)
    (hs : ∀ relation ∈ r.rotationRelations, relation.encode.length ≤ Memory.addressable) :
    Ends Recorder.rotate r fun answer r' => ∃ es, ∃ gained : Bytes,
      answer = .ok gained.length ∧ r.RetiresTypeSet r' es gained := by
  refine (h.rotate_getsThrough hb ha hsink hr hm hs).mono ?_
  rintro answer r' ⟨n, r₁, r₂, statics, threads, types, gained, htables, hanswer, hthrough⟩
  obtain ⟨s', hsur⟩ := hthrough.surroundings
  refine ⟨types, gained, hanswer, ⟨hthrough.chunk,
    r.global.content ++ (statics ++ threads).flatten,
    r.threadLocal.content ++ r.virtualThreadLocal.content, ?_⟩,
    (congrArg Recorder.typeSet hsur :), epoch_eq_of_surroundings_eq hsur, n, r₁, htables,
    fun hd => ?_⟩
  · rw [hthrough.bytes]
    simp
  · exact hthrough.gainsTypes.writtenAs ((congrArg Prod.fst hthrough.score).symm.trans hd)

/-- **A flush repeats the waiting constants**, where the sink accepts every call. -/
theorem Sound.flushTypeSet_repeats (h : r.Sound out r.epoch.current)
    (hb : r.epoch.barrier = none) (ha : r.aborted = false) {s : Sink} (hsink : r.sink = some s)
    (hr : s.Reliable) (hm : r.options.Modest .global)
    (hs : ∀ relation ∈ r.typeSet.relations, relation.encode.length ≤ Memory.addressable) :
    Ends Recorder.flushTypeSet r fun answer r' => ∃ es, ∃ gained : Bytes,
      answer = .ok gained.length ∧ r.RepeatsTypeSet r' es gained := by
  refine Ends.after (Fallible.runOn_get r) ?_
  refine (h.writeRelations_gains ha recorderThread hm false rfl hs).bind ?_ ?_
  · rintro n r₁ ⟨-, ht, hgains⟩
    obtain ⟨es, hgains⟩ : ∃ es, r.Gains [(r.typeSet.relations, es)] r₁ := ⟨_, hgains⟩
    have hepoch : r₁.epoch = r.epoch := ht.epoch
    have hsink₁ : r₁.sink = some s := ht.prepared.sink.trans hsink
    have ha₁ : r₁.aborted = false := (aborted_eq_of_surroundings_eq ht.surroundings).trans ha
    have hs₁ : r₁.Sound out r₁.epoch.current := hepoch ▸ ht.sound
    refine ((hs₁.write (hepoch ▸ hb)).and (keeps_score_write.ends r₁)).mono ?_
    rintro answer r' ⟨⟨hsettles, hcase⟩, hscore⟩
    rcases hcase with ⟨-, -, hno⟩ | ⟨s₁, s', hsome, hsur, -, -, hreliable⟩
    · simp [ha₁, hsink₁] at hno
    obtain rfl : s = s₁ := Option.some.inj (hsink₁.symm.trans hsome)
    obtain ⟨-, hanswer, hsent⟩ := hreliable hr
    refine ⟨es, r₁.sent Recorder.detachForWrite, ?_, ⟨(ht.settles.thenSent hsettles).chunk,
      r.global.content, r.threadLocal.content ++ r.virtualThreadLocal.content, ?_⟩, ?_, ?_,
      fun hd => ?_⟩
    · rw [hanswer, hsent, ← usedBytes_eq_length, usedBytes_laden]
    · rw [hsent, flatMap_laden fun _ => Buffer.isEmpty_iff.1, hgains.flatMap_pooled h ht.sound,
        List.flatMap_singleton, List.append_assoc]
    · exact (congrArg Recorder.typeSet hsur).trans (congrArg Recorder.typeSet ht.surroundings :)
    · exact (epoch_eq_of_surroundings_eq hsur).trans hepoch
    · exact hgains.writtenAs ((congrArg Prod.fst hscore).symm.trans hd)
  · rintro _ _ ⟨⟨_, hok⟩, -⟩
    cases hok

/-! ## 4. What still waits -/

theorem keeps_typeSet_flushTypeSet : Keeps Recorder.typeSet Recorder.flushTypeSet := by
  refine .get_bind fun r => ?_
  have hfirst : Keeps Recorder.typeSet
      (Recorder.writeRelations recorderThread .global false r.typeSet.relations) :=
    (keeps_writeRelations _ _ _ _).coarser fun _ => rfl
  have hlast : Keeps Recorder.typeSet Recorder.write := keeps_write.coarser fun _ => rfl
  exact (hfirst.bind fun _ => hlast) r

/-- **Whatever becomes of a rotation**, the waiting constants still wait, or they were handed to a
checkpoint and none waits. -/
theorem Sound.rotate_takes (h : r.Sound out r.epoch.current) :
    Ends Recorder.rotate r fun _ r' => r'.typeSet = r.typeSet ∨ (r'.typeSet = [] ∧ ∃ r₁,
      Trades r out r₁ out r.epoch.current r.staticAndThreadEntries ∧ r.rotationEntries =
        r.staticAndThreadEntries ++ (r₁.moveEpoch EpochController.raise).typeSetEntries true) := by
  have hfirst : Ends Recorder.detachForRotation r fun _ r' =>
      r'.typeSet = r.typeSet ∨ (r'.typeSet = [] ∧ ∃ r₁,
        Trades r out r₁ out r.epoch.current r.staticAndThreadEntries ∧ r.rotationEntries =
          r.staticAndThreadEntries ++
            (r₁.moveEpoch EpochController.raise).typeSetEntries true) := by
    have hkeeps : Keeps Recorder.typeSet Recorder.writeStaticsAndThreads :=
      keeps_writeStaticsAndThreads.coarser fun _ => rfl
    refine h.firstHalf.mono ?_
    rintro answer r' hcase
    cases hcase with
    | refused => exact .inl rfl
    | tables _ hrun => exact .inl ((hkeeps.ends r).run_eq hrun)
    | @types _ _ r₁ r₂ hready htables ht hrun =>
      have htypes := typeSet_writeTypeSet true (r₁.moveEpoch EpochController.raise)
      rw [hrun] at htypes
      exact .inr ⟨htypes, r₁, ht, rotationEntries_of_ok hready htables⟩
    | @detached _ _ _ r₁ r₂ r₃ hready htables ht hrun _ hdetach =>
      have htypes := typeSet_writeTypeSet true (r₁.moveEpoch EpochController.raise)
      rw [hrun] at htypes
      have hkept : Keeps Recorder.typeSet (Recorder.detach r.epoch.current) :=
        (keeps_detach r.epoch.current).coarser fun _ => rfl
      exact .inr ⟨((hkept.ends r₂).run_eq hdetach).trans htypes, r₁, ht,
        rotationEntries_of_ok hready htables⟩
  refine hfirst.bind (fun d r' hr' => ?_) fun _ _ hr' => hr'
  have hkept : Keeps Recorder.typeSet (Recorder.emit d) := (keeps_emit d).coarser fun _ => rfl
  exact (hkept.ends r').mono fun _ _ heq => by rwa [heq]

theorem Sound.typeSet_rotate (h : r.Sound out r.epoch.current) :
    Ends Recorder.rotate r fun _ r' => r'.typeSet = r.typeSet ∨ r'.typeSet = [] :=
  h.rotate_takes.mono fun _ _ htaken => htaken.imp id And.left

end Recorder

end TraceRecorder
