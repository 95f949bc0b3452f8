/-
# What a recorder is told, it recites

A recorder that was not aborted recites relations (`Recites`) if it publishes entries that yield
their constants, unless it drops a checkpoint and counts that.  Every operation in which a recorder
writes on its own behalf recites relations that it can name beforehand:

* `Sound.writeRelations_recites`: the relations that it is given;
* `Sound.writeStaticsAndThreads_recites`: the static relations and the table of threads;
* `Sound.flushTypeSet_drains`, `Sound.rotate_drains`: drains, which leave nothing unsent unless the
  sink refuses a call, and nothing pooled if they succeed.

What a recorder was told itself, and whether it has a sink, is its `Setting`.  No pool, no size and
no counter is part of that.
-/
import TraceRecorder.Proofs.Chunk.Yields
import TraceRecorder.Proofs.Recorder.Completion
import TraceRecorder.Proofs.Recorder.Passes

namespace TraceRecorder

open Fallible (Ends Keeps)

/-! ## 1. Settings -/

/-- **What a recorder was told**, and whether it has a sink. -/
structure Setting where
  registered : List Relation := []
  typeSet : TypeSet := []
  host : Host := {}
  sink : Bool := false

namespace Setting

/-- The relations that are written at every rotation. -/
def statics (s : Setting) : List Relation := StaticConstants.builtin ++ s.registered

/-- What a rotation recites, if there is a sink. -/
def rotation (s : Setting) : List Relation :=
  s.statics ++ (ThreadInfo.table s.host.liveThreads ++ s.typeSet.relations)

end Setting

namespace Recorder

variable {r r' r'' : Recorder} {out : List Buffer} {e : Epoch} {kind : BufferKind}

def setting (r : Recorder) : Setting := ⟨r.registered, r.typeSet, r.host, r.sink.isSome⟩

theorem setting_eq_of_surroundings_eq (h : r'.surroundings = r.surroundings) :
    r'.setting = r.setting := (congrArg setting h :)

/-! ## 2. Recitals -/

/-- **The entries yield the constants of the relations**, unless a checkpoint was dropped. -/
structure Recites (r : Recorder) (relations : List Relation) (es : List Bytes) (r' : Recorder) :
    Prop where
  dropped : r.score.1 ≤ r'.score.1
  yields : r'.score.1 = r.score.1 → Entry.Yields es (relations.flatMap Relation.constants)

theorem Recites.nothing (h : r.score.1 ≤ r'.score.1) : Recites r [] [] r' := ⟨h, fun _ => .nil⟩

theorem Recites.later {relations : List Relation} {es : List Bytes}
    (h : Recites r relations es r') (hd : r''.score.1 = r'.score.1) :
    Recites r relations es r'' where
  dropped := hd ▸ h.dropped
  yields hsame := h.yields (hd ▸ hsame)

/-- **A checkpoint of relations recites them**: if it is not dropped, what is published of it is
read back as all their constants, in as many pieces as it may have. -/
theorem Sound.writeRelations_recites (h : r.Sound out e) (ha : r.aborted = false)
    (thread : ThreadId) (hm : r.options.Modest kind) (duringDrain : Bool)
    (he : Fallible.runOn (leaseEpoch duringDrain) r = (.ok e, r)) {relations : List Relation}
    (hs : ∀ relation ∈ relations, relation.encode.length ≤ Memory.addressable) :
    Ends (Recorder.writeRelations thread kind duringDrain relations) r fun answer r' =>
      (∃ n, answer = .ok n) ∧
      Trades r out r' out e (relationEntries thread kind duringDrain relations r) ∧
      r.Recites relations (relationEntries thread kind duringDrain relations r).entries r' := by
  refine (h.writeRelations_scored ha thread hm duringDrain he hs).mono ?_
  rintro answer r' ⟨hok, ht, hscore⟩
  refine ⟨hok, ht, ?_⟩
  rcases hscore with hd | ⟨hd, hspans⟩
  · refine ⟨?_, fun hsame => ?_⟩
    · rw [hd]
      exact Nat.le_succ _
    · rw [hd] at hsame
      exact absurd hsame (Nat.succ_ne_self _)
  · exact ⟨Nat.le_of_eq (by rw [hd]), fun _ => .of_spans hspans⟩

/-- **The entries of the global pool** gain those of the checkpoints that are queued there. -/
theorem Gains.count_pooled {parts : List (List Relation × List Bytes)} (hg : r.Gains parts r')
    {out' : List Buffer} {e' : Epoch} (h : r.Sound out e) (h' : r'.Sound out' e') (x : Bytes) :
    (r'.pooled.flatMap Buffer.entries).count x =
      (r.pooled.flatMap Buffer.entries).count x + (parts.flatMap Prod.snd).count x := by
  have howns : ∀ s : Space, s.pooled.filter (Lane.owns .global) = s.pooled :=
    fun s => List.filter_eq_self.2 fun _ _ => rfl
  have hglobal : (r'.space .global).pooled.flatMap Buffer.entries =
      (r.space .global).pooled.flatMap Buffer.entries ++ parts.flatMap Prod.snd := by
    have hline := h.all_line .global
    have hline' := h'.all_line .global
    rw [Lane.kind, howns] at hline hline'
    have hkept : (r.line .global).kept = [] := rfl
    rw [← hline, ← hline', hg.queued.line, Line.all, Line.all, Line.push, hkept, List.append_nil,
      List.append_nil]
  have hpool : ∀ kind, kind ≠ .global → (r'.space kind).pooled = (r.space kind).pooled :=
    fun kind hk => Space.pooled_eq_of_visible_eq (hg.queued.pools kind hk)
  simp only [pooled, BufferKind.all, List.flatMap_cons, List.flatMap_nil, List.append_nil,
    List.flatMap_append, List.count_append, hglobal, hpool .threadLocal (by decide),
    hpool .virtualThreadLocal (by decide)]
  omega

/-- **Checkpoints that are queued in the global pool recite their relations.** -/
theorem Gains.recites {parts : List (List Relation × List Bytes)} (hg : r.Gains parts r')
    {es : List Bytes} (hes : ∀ x, es.count x = (parts.flatMap Prod.snd).count x) :
    r.Recites (parts.flatMap Prod.fst) es r' where
  dropped := hg.dropped
  yields hsame := by
    have hall : Entry.Yields (parts.flatMap Prod.snd)
        ((parts.flatMap Prod.fst).flatMap Relation.constants) := by
      have hspans := hg.spans hsame
      clear hes hg
      induction parts with
      | nil => exact .nil
      | cons part rest ih =>
        rw [List.flatMap_cons, List.flatMap_cons, List.flatMap_append]
        exact (Entry.Yields.of_spans (hspans part List.mem_cons_self)).append
          (ih fun part hp => hspans part (List.mem_cons_of_mem _ hp))
    exact hall.of_perm (List.perm_iff_count.2 hes) (.refl _)

/-- **The static relations and the table of threads.** -/
theorem Sound.writeStaticsAndThreads_recites (h : r.Sound out r.epoch.current)
    (ha : r.aborted = false) (hm : r.options.Modest .global)
    (hs : ∀ relation ∈ r.statics ++ ThreadInfo.table r.host.liveThreads,
      relation.encode.length ≤ Memory.addressable) :
    Ends Recorder.writeStaticsAndThreads r fun answer r' => (∃ n, answer = .ok n) ∧
      Trades r out r' out r.epoch.current r.staticAndThreadEntries ∧
      r.Recites (r.statics ++ ThreadInfo.table r.host.liveThreads)
        r.staticAndThreadEntries.entries r' := by
  refine (h.writeStaticsAndThreads.and (h.writeStaticsAndThreads_gains ha hm hs)).mono ?_
  rintro _ r' ⟨hpost, ⟨n, rfl⟩, statics, threads, hg⟩
  have ht := hpost.resolve_left (not_refused_ok n)
  refine ⟨⟨n, rfl⟩, ht, ?_⟩
  have hsame : ∀ x, r.staticAndThreadEntries.entries.count x = (statics ++ threads).count x := by
    intro x
    have hx := ht.entries x
    have hgained := hg.count_pooled h ht.sound x
    simp only [entries, List.flatMap_append, List.count_append, List.flatMap_cons,
      List.flatMap_nil, List.append_nil] at hx hgained ⊢
    omega
  simpa using hg.recites (by simpa using hsame)

/-! ## 3. Drains -/

/-- **What a drain leaves behind.**  If it succeeds, nothing is pooled any more. -/
structure Drains (r : Recorder) (relations : List Relation) (es unsent : List Bytes)
    (answer : Except Fault Nat) (r' : Recorder) : Prop where
  recites : r.Recites relations es r'
  unsent : (∃ f, answer = .error (.sink f)) ∨ unsent = []
  aborted : r'.aborted = r.aborted
  empty : (∃ n, answer = .ok n) → ∀ b ∈ r'.pooled, b.isEmpty = true

theorem Sound.write_drains (h : r.Sound out r.epoch.current) (hb : r.epoch.barrier = none) :
    Ends Recorder.write r fun answer r' => Refused answer ∨
      (r.Drains [] [] (r.unsent Recorder.detachForWrite) answer r' ∧ r'.setting = r.setting) := by
  have hunsent : Ends Recorder.write r _ := (h.detachForWrite_collects hb).unsent_eq_nil
  refine (((h.write hb).and hunsent).and (keeps_score_write.ends r)).mono ?_
  rintro answer r' ⟨⟨⟨-, hpost⟩, hunsent⟩, hscore⟩
  have hrecites : r.Recites [] [] r' := .nothing (Nat.le_of_eq (by rw [hscore]))
  refine hunsent.imp id fun hunsent => ?_
  rcases hpost with ⟨rfl, ⟨fault, rfl⟩, -⟩ | ⟨s, s', hs, hsur, -, hempty, -⟩
  · exact ⟨⟨hrecites, hunsent, rfl, fun ⟨_, hok⟩ => by cases hok⟩, rfl⟩
  · refine ⟨⟨hrecites, hunsent, (aborted_eq_of_surroundings_eq hsur :), fun _ => hempty⟩, ?_⟩
    rw [setting_eq_of_surroundings_eq hsur]
    exact congrArg (Setting.mk _ _ _) (by rw [hs]; rfl)

/-- **The waiting constants are recited**, and still wait. -/
theorem Sound.flushTypeSet_drains (h : r.Sound out r.epoch.current) (hb : r.epoch.barrier = none)
    (ha : r.aborted = false) (hm : r.options.Modest .global)
    (hs : ∀ relation ∈ r.typeSet.relations, relation.encode.length ≤ Memory.addressable) :
    Ends Recorder.flushTypeSet r fun answer r' => Refused answer ∨
      (r.Drains r.typeSet.relations r.waitingEntries.entries (r.unsent Recorder.detachForFlush)
        answer r' ∧ r'.setting = r.setting) := by
  have hfirst := h.writeRelations_recites ha recorderThread hm false rfl hs
  rcases hrun : Fallible.runOn
      (Recorder.writeRelations recorderThread .global false r.typeSet.relations) r with
    ⟨answer, r₁⟩
  obtain ⟨⟨n, rfl⟩, ht, hrecites⟩ := hfirst.run_eq hrun
  have hunsent : r.unsent Recorder.detachForFlush = r₁.unsent Recorder.detachForWrite := by
    have hflush : Fallible.runOn Recorder.detachForFlush r =
        Fallible.runOn Recorder.detachForWrite r₁ := by simp [Recorder.detachForFlush, hrun]
    rw [unsent, unsent, hflush]
  have hwrite := Sound.write_drains (ht.epoch ▸ ht.sound) (by rw [ht.epoch, hb])
  refine Ends.after (Fallible.runOn_get r) (Ends.after hrun
    ((hwrite.and (keeps_score_write.ends r₁)).mono ?_))
  rintro answer r' ⟨hpost, hscore⟩
  refine hpost.imp id ?_
  rintro ⟨⟨-, hnone, haborted, hempty⟩, hsetting⟩
  refine ⟨⟨hrecites.later (by rw [hscore]), hunsent ▸ hnone, ?_, hempty⟩, ?_⟩
  · exact haborted.trans (aborted_eq_of_surroundings_eq ht.surroundings)
  · exact hsetting.trans (setting_eq_of_surroundings_eq ht.surroundings)

/-- **A rotation recites all that was told**, if there is a sink; the waiting constants wait no
more. -/
theorem Sound.rotate_drains (h : r.Sound out r.epoch.current) (hb : r.epoch.barrier = none)
    (ha : r.aborted = false) (hm : r.options.Modest .global) (hsink : r.sink.isSome = true)
    (hs : ∀ relation ∈ r.setting.rotation, relation.encode.length ≤ Memory.addressable) :
    Ends Recorder.rotate r fun answer r' => Refused answer ∨
      (r.Drains r.setting.rotation r.rotationEntries.entries
        (r.unsent Recorder.detachForRotation) answer r' ∧
        r'.setting = { r.setting with typeSet := [] }) := by
  have hfirst := (h.detachForRotation hb).and (h.detachForRotation_gains hb ha hsink hm hs)
  have hunsent : Ends Recorder.rotate r _ := (h.detachForRotation_collects hb).unsent_eq_nil
  rcases hrun : Fallible.runOn Recorder.detachForRotation r with ⟨answer, r₁⟩
  obtain ⟨hpost, d, _, statics, threads, types, _, r₂, rfl, -, htables, htypes, hs₂, hladen, hscore,
    hsur⟩ := hfirst.run_eq hrun
  have hgains := htables.trans htypes
  obtain ⟨hp, ⟨s, hsome⟩, hk, hs₁, -, hempty, hsettles⟩ := hpost.resolve_left (not_refused_ok d)
  have hkept : Ends Recorder.rotate r fun _ r' => r'.score = r₁.score :=
    Ends.after hrun ((keeps_score_emit d).ends r₁)
  have hdrain : Ends Recorder.rotate r _ := ends_drain hrun hs₁ hk (hp.sink.trans hsome)
  refine ((hdrain.and hunsent).and hkept).mono ?_
  rintro answer r' ⟨⟨⟨s', hs', honly, -, -⟩, hunsent⟩, hscore'⟩
  refine hunsent.imp id fun hunsent => ?_
  have hsur' : r'.surroundings = (r.rotated.withSink s').surroundings :=
    honly.surroundings.trans (withSink_surroundings_eq hsur s')
  have hsame : ∀ x, r.rotationEntries.entries.count x =
      (statics ++ (threads ++ types)).count x := by
    intro x
    have hx := hsettles.entries x
    have hgained := hgains.count_pooled h hs₂ x
    have hnone : r₁.pooled.flatMap Buffer.entries = [] :=
      List.flatMap_eq_nil_iff.2 fun b hb => entries_of_isEmpty (hempty b hb)
    have hdetached : d.buffers.flatMap Buffer.entries = r₂.pooled.flatMap Buffer.entries := by
      rw [← flatMap_laden (fun _ => entries_of_isEmpty) d.buffers, hladen,
        flatMap_laden fun _ => entries_of_isEmpty]
    simp only [entries, List.flatMap_append, List.count_append, List.flatMap_cons, hnone,
      hdetached, Entry.split_nil, List.count_nil, List.flatMap_nil, List.append_nil] at hx hgained ⊢
    omega
  have hrecites : r.Recites r.setting.rotation r.rotationEntries.entries r₂ := by
    have hrotation : r.setting.rotation =
        r.statics ++ (ThreadInfo.table r.host.liveThreads ++ r.typeSet.relations) := rfl
    rw [hrotation]
    simpa using hgains.recites (by simpa using hsame)
  refine ⟨⟨hrecites.later ?_, hunsent, ?_, ?_⟩, ?_⟩
  · rw [hscore', hscore]
  · exact (aborted_eq_of_surroundings_eq hsur' :)
  · rintro -
    rw [honly.pooled]
    exact hempty
  · rw [setting_eq_of_surroundings_eq hsur']
    exact congrArg (Setting.mk _ _ _) hsink.symm

end Recorder

end TraceRecorder
