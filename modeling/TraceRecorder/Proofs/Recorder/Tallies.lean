/-
# What a checkpoint is counted as

A checkpoint is counted once it is over: as written if it ends with segments, and as dropped when
there is no buffer for it.  While it goes on neither counter moves (`Tallied`), and a writer that is
gone is never counted again.  So a checkpoint that was given a segment is counted exactly once:

* `ends_start_tallied`, `ends_start_starved`: at its begin;
* `Holds.append_tallied`, `Holds.append_starved`: with each segment;
* `Holds.finish_counts`, `Gone.finish_counts`: at its end;
* `Sound.writeRelations_tallied`: all of it, where the recorder writes one on its own behalf.
-/
import TraceRecorder.Proofs.Recorder.Drops

namespace TraceRecorder

open Fallible (Ends Keeps)

namespace Recorder

/-- **So many checkpoints were written meanwhile, and so many dropped.** -/
structure Counts (r r' : Recorder) (written dropped : Nat) : Prop where
  written : r'.stats.checkpointsWritten = r.stats.checkpointsWritten + written
  dropped : r'.stats.checkpointsDropped = r.stats.checkpointsDropped + dropped

theorem Counts.trans {r r' r'' : Recorder} {n m n' m' : Nat} (h : r.Counts r' n m)
    (h' : r'.Counts r'' n' m') : r.Counts r'' (n + n') (m + m') := by
  constructor
  · rw [h'.written, h.written, Nat.add_assoc]
  · rw [h'.dropped, h.dropped, Nat.add_assoc]

end Recorder

/-! ## 1. Writers -/

namespace Writer

variable {w : Writer} {r r' : Recorder} {out : List Buffer} {b : Buffer} {run : List Bytes}
  {e : Epoch}

/-- **The checkpoint is not counted yet**, or it is gone and was counted as dropped. -/
theorem Scored.counts (h : w.Scored r r')
    (hlast : r'.stats.checkpointsWritten = r.stats.checkpointsWritten) :
    (w.dropped = false ∧ r.Counts r' 0 0) ∨ (w.Gone ∧ r.Counts r' 0 1) := by
  rcases h with ⟨halive, hscore⟩ | ⟨hgone, hscore⟩
  · exact .inl ⟨halive, hlast, congrArg Prod.fst hscore⟩
  · exact .inr ⟨hgone, hlast, congrArg Prod.fst hscore⟩

/-- **A checkpoint begins** with a buffer, or it is dropped. -/
theorem ends_start_tallied (h : r.Sound out e) (ha : r.aborted = false) (thread : ThreadId)
    (kind : BufferKind) (duringDrain : Bool)
    (he : Fallible.runOn (Recorder.leaseEpoch duringDrain) r = (.ok e, r)) :
    Ends (start thread kind duringDrain) r fun answer r' => Refused answer ∨ ∃ w, answer = .ok w ∧
      r'.Sound (w.buffer.toList ++ out) e ∧
      (((∃ b, w.Holds b [] e) ∧ r.Counts r' 0 0) ∨ (w.Gone ∧ r.Counts r' 0 1)) := by
  refine ((ends_start h thread kind duringDrain he).and
    (ends_start_scored h ha thread kind duringDrain he)).mono ?_
  rintro answer r' ⟨hstart, hpost⟩
  refine hpost.imp (fun hrefused => hrefused.1) ?_
  rintro ⟨w, rfl, hscored⟩
  obtain ⟨ht, hw, -⟩ := hstart
  have hlast : r'.stats.checkpointsWritten = r.stats.checkpointsWritten := by
    rw [ht.last, stats_entered]
    rfl
  refine ⟨w, rfl, ht.sound, (hscored.counts hlast).imp ?_ id⟩
  rintro ⟨halive, hcounts⟩
  exact ⟨hw.resolve_left fun hgone => hgone.dropped_ne halive, hcounts⟩

/-- **A checkpoint for which there is no buffer** is dropped at its begin. -/
theorem ends_start_starved (h : r.Sound out e) (ha : r.aborted = false) (thread : ThreadId)
    (kind : BufferKind) (duringDrain : Bool)
    (he : Fallible.runOn (Recorder.leaseEpoch duringDrain) r = (.ok e, r)) {fault : Fault}
    {r₁ : Recorder} (hf : fault.isExhausted = true)
    (hacquire : Fallible.runOn (Recorder.acquire thread kind duringDrain Header.length)
      (entered duringDrain r) = (.error fault, r₁)) :
    Ends (start thread kind duringDrain) r fun answer r' => ∃ w, answer = .ok w ∧ w.Gone ∧
      r.Counts r' 0 1 := by
  refine ((ends_start_tallied h ha thread kind duringDrain he).and
    (starting thread kind duringDrain r)).mono ?_
  rintro answer r' ⟨hpost, hcase⟩
  cases hcase with
  | aborted habort =>
    rw [ha] at habort
    cases habort
  | began _ hrun =>
    rw [hacquire] at hrun
    cases hrun
  | refused _ hrun hends =>
    rw [hacquire] at hrun
    cases hrun
    rw [Fault.not_isExhausted_of_endsThread hends] at hf
    cases hf
  | dropped _ _ _ hdrop =>
    obtain ⟨rfl, -⟩ := (ends_drop_scored _ _).run_eq hdrop
    obtain ⟨w, ⟨⟩, -, hw⟩ := hpost.resolve_left (not_refused_ok _)
    refine ⟨_, rfl, gone_gone _, (hw.resolve_left ?_).2⟩
    rintro ⟨⟨b, hb⟩, -⟩
    cases hb.buffer

/-- **The writer has segments and is not counted yet**, or it is gone and was counted as dropped.
It has `most` segments at most. -/
def Tallied (w : Writer) (e : Epoch) (most : Nat) (r r' : Recorder) : Prop :=
  ((∃ b run, w.Holds b run e ∧ run ≠ [] ∧ run.length ≤ most) ∧ r.Counts r' 0 0) ∨
    (w.Gone ∧ r.Counts r' 0 1)

/-- **A segment is taken**, or the checkpoint is dropped. -/
theorem Holds.append_tallied (hw : w.Holds b run e) (h : r.Sound (b :: out) e) {segment : Bytes}
    (hs : segment.length ≤ Memory.addressable) :
    Ends (w.append segment) r fun answer r' => ∃ outcome w', answer = .ok (outcome, w') ∧
      (Refused outcome ∨ (outcome = .ok () ∧ r'.Sound (w'.buffer.toList ++ out) e ∧
        w'.Tallied e (run.length + 1) r r')) := by
  refine ((hw.append h segment).and (hw.append_scored h hs)).mono ?_
  rintro answer r' ⟨⟨outcome, w', rfl, -, hpost⟩, _, _, ⟨⟩, hpost'⟩
  refine ⟨outcome, w', rfl, hpost'.imp (fun hrefused => hrefused.1) ?_⟩
  rintro ⟨rfl, hscored⟩
  obtain ⟨ht, htook⟩ := hpost.resolve_left (not_refused_ok _)
  refine ⟨rfl, ht.sound, (hscored.counts ht.last).imp ?_ id⟩
  rintro ⟨halive, hcounts⟩
  have htook := htook.resolve_left fun hgone => hgone.dropped_ne halive
  obtain ⟨b', hb'⟩ := htook.holds
  refine ⟨⟨b', _, hb', ?_⟩, hcounts⟩
  split
  · exact ⟨List.cons_ne_nil _ _, Nat.le_add_left ..⟩
  · simp

/-- **A segment for which there is no buffer** drops the checkpoint: there is no larger one for the
entry, or no fresh one behind a cut. -/
theorem Holds.append_starved (hw : w.Holds b run e) (h : r.Sound (b :: out) e) {segment : Bytes}
    {fault : Fault} {r₁ : Recorder} (hf : fault.isExhausted = true)
    (hlease : (w.segments = 0 ∧ b.free < segment.length ∧
        Fallible.runOn (Recorder.renew b w.thread segment.length w.kind) r = (.error fault, r₁)) ∨
      (w.Cuts b segment ∧ Fallible.runOn (Recorder.flush (w.sealEntry b r.clock true)
        (w.entrySize b) (Header.length + segment.length) w.thread) r = (.error fault, r₁))) :
    Ends (w.append segment) r fun answer r' => ∃ w', answer = .ok (.ok (), w') ∧ w'.Gone ∧
      r.Counts r' 0 1 := by
  refine ((hw.append h segment).and (hw.taking h segment)).mono ?_
  rintro _ r' ⟨⟨outcome, w', rfl, -, hpost⟩, htaking⟩
  have hdropped : ∀ {w₁ : Writer} {r₁ : Recorder}, r₁.score = r.score →
      Fallible.runOn (w₁.fail fault) r₁ = (.ok (outcome, w'), r') →
      ∃ w₂, (.ok (outcome, w') : Except Fault _) = .ok (.ok (), w₂) ∧ w₂.Gone ∧
        r.Counts r' 0 1 := by
    intro w₁ r₁ hscore hfail
    obtain ⟨heq, hdrop⟩ := (ends_fail_scored w₁ r₁ hf).run_eq hfail
    cases heq
    have hlast := (hpost.resolve_left (not_refused_ok _)).1.last
    have hdrop : r'.score = r.scoreDrop := by
      rw [hdrop, Recorder.scoreDrop, hscore, Recorder.scoreDrop]
    exact ⟨_, rfl, gone_gone _, hlast, congrArg Prod.fst hdrop⟩
  have hrenewed := (Recorder.keeps_score
    (Recorder.keeps_renew b w.thread segment.length w.kind)).ends r
  have hflushed := (Recorder.keeps_score (Recorder.keeps_flush (w.sealEntry b r.clock true)
    (w.entrySize b) (Header.length + segment.length) w.thread)).ends r
  cases htaking with
  | fits hroom hplace =>
    rcases hlease with ⟨-, hlarge, -⟩ | ⟨hcut, -⟩
    · exact absurd hroom (Nat.not_le.2 hlarge)
    · exact absurd hroom (Nat.not_le.2 hcut.2)
  | renewed hseg hrenew ht hnew hplace =>
    rcases hlease with ⟨-, -, hlease⟩ | ⟨hcut, -⟩
    · rw [hlease] at hrenew
      cases hrenew
    · exact absurd hseg hcut.1
  | exhausted hseg hrenew hfail =>
    rcases hlease with ⟨-, -, hlease⟩ | ⟨hcut, -⟩
    · rw [hlease] at hrenew
      cases hrenew
      exact hdropped (hrenewed.run_eq hlease) hfail
    · exact absurd hseg hcut.1
  | cut hcut hflush ht hopen hroom hentries hplace =>
    rcases hlease with ⟨hseg, -⟩ | ⟨-, hlease⟩
    · exact absurd hseg hcut.1
    · rw [hlease] at hflush
      cases hflush
  | cutExhausted hcut hflush hfail =>
    rcases hlease with ⟨hseg, -⟩ | ⟨-, hlease⟩
    · exact absurd hseg hcut.1
    · rw [hlease] at hflush
      cases hflush
      exact hdropped (hflushed.run_eq hlease) hfail

/-- **A checkpoint that has segments ends as written.** -/
theorem Holds.finish_counts (hw : w.Holds b run e) (hsegments : w.segments ≠ 0)
    (h : r.Sound (b :: out) e) :
    Ends w.finish r fun answer r' => (∃ n, answer = .ok n) ∧ r.Counts r' 1 0 := by
  have hs : r.Sound (w.buffer.toList ++ out) e := by rwa [hw.buffer]
  have hfinish := Valid.finish (.inr ⟨b, run, hw⟩) hs
  refine (hfinish.and (w.keeps_score_finish.ends r)).mono ?_
  rintro _ r' ⟨⟨n, r₁, rfl, rfl, ht, -⟩, hscore⟩
  refine ⟨⟨n, rfl⟩, ?_, congrArg Prod.fst hscore⟩
  have hlast := ht.last
  rw [hw.lastPiece?_eq, if_neg hsegments] at hlast
  have hleft : (w.left r₁).stats = r₁.stats := by
    unfold left
    cases w.pinned <;> rfl
  rw [hleft]
  exact hlast

theorem Gone.finish_counts (hw : w.Gone) (r : Recorder) :
    Ends w.finish r fun answer r' => answer = .ok 0 ∧ r.Counts r' 0 0 := by
  refine Ends.of_run hw.runOn_finish ⟨rfl, ?_⟩
  unfold left
  cases w.pinned <;> exact ⟨rfl, rfl⟩

end Writer

/-! ## 2. Checkpoints of relations -/

namespace Recorder

variable {r : Recorder} {out : List Buffer} {e : Epoch}

/-- **A checkpoint of relations is counted once**, as written or as dropped, if one of them has
pairs and a word can count them.  If it was dropped the answer is 0. -/
theorem Sound.writeRelations_tallied (h : r.Sound out e) (ha : r.aborted = false)
    (thread : ThreadId) (kind : BufferKind) (duringDrain : Bool)
    (he : Fallible.runOn (leaseEpoch duringDrain) r = (.ok e, r)) {relations : List Relation}
    (hs : ∀ relation ∈ relations, relation.encode.length ≤ Memory.addressable)
    (hfew : r.options.Modest kind ∨ relations.length < UInt32.size)
    (hne : ∃ relation ∈ relations, relation.isEmpty = false) :
    Ends (Recorder.writeRelations thread kind duringDrain relations) r fun answer r' =>
      Refused answer ∨ ∃ n, answer = .ok n ∧
        (r.Counts r' 1 0 ∨ (n = 0 ∧ r.Counts r' 0 1)) := by
  have hrows : relations.filter (fun relation => !relation.isEmpty) ≠ [] := by
    obtain ⟨relation, hr, hfull⟩ := hne
    exact List.ne_nil_of_mem (List.mem_filter.2 ⟨hr, by rw [hfull]; rfl⟩)
  refine ((h.writeRelations thread kind duringDrain he relations).and
    (h.writeRelations_score ha thread kind duringDrain he hs)).mono ?_
  rintro answer r' ⟨htrades, hrefused | ⟨n, rfl, hgoes⟩⟩
  · exact .inl hrefused.1
  have hwritten := (htrades.resolve_left (not_refused_ok n)).last
  refine .inr ⟨n, rfl, ?_⟩
  rcases hgoes with ⟨rfl, hscore, hnil⟩ | ⟨hscore, hlast⟩
  · rw [hnil] at hwritten
    exact .inr ⟨rfl, hwritten, congrArg Prod.fst hscore⟩
  · obtain ⟨left, -, hends⟩ := h.relationEntries_cuttings thread kind duringDrain he relations
    obtain ⟨-, -, duration, hpiece⟩ := hends.resolve_left fun hnil => hrows (hlast hfew hnil)
    rw [hpiece] at hwritten
    exact .inl ⟨hwritten, congrArg Prod.fst hscore⟩

theorem Sound.writeRelations_counts (h : r.Sound out e) (ha : r.aborted = false)
    (thread : ThreadId) (kind : BufferKind) (duringDrain : Bool)
    (he : Fallible.runOn (leaseEpoch duringDrain) r = (.ok e, r)) {relations : List Relation}
    (hs : ∀ relation ∈ relations, relation.encode.length ≤ Memory.addressable)
    (hfew : r.options.Modest kind ∨ relations.length < UInt32.size)
    (hne : ∃ relation ∈ relations, relation.isEmpty = false) :
    Ends (Recorder.writeRelations thread kind duringDrain relations) r fun answer r' =>
      Refused answer ∨ ((∃ n, answer = .ok n) ∧ (r.Counts r' 1 0 ∨ r.Counts r' 0 1)) := by
  refine (h.writeRelations_tallied ha thread kind duringDrain he hs hfew hne).mono ?_
  rintro answer r' (hrefused | ⟨n, rfl, hcounts⟩)
  · exact .inl hrefused
  · exact .inr ⟨⟨n, rfl⟩, hcounts.imp id And.right⟩

/-- **A checkpoint of relations meets no fault**, unless memory is refused. -/
theorem Sound.writeRelations_answers (h : r.Sound out e) (ha : r.aborted = false)
    (thread : ThreadId) (kind : BufferKind) (duringDrain : Bool)
    (he : Fallible.runOn (leaseEpoch duringDrain) r = (.ok e, r)) {relations : List Relation}
    (hs : ∀ relation ∈ relations, relation.encode.length ≤ Memory.addressable) :
    Ends (Recorder.writeRelations thread kind duringDrain relations) r fun answer _ =>
      Refused answer ∨ ∃ n, answer = .ok n := by
  refine (h.writeRelations_score ha thread kind duringDrain he hs).mono ?_
  exact fun answer r' hpost => hpost.imp And.left fun ⟨n, hn, _⟩ => ⟨n, hn⟩

end Recorder

end TraceRecorder
