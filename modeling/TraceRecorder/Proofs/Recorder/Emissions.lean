/-
# What the recorder publishes on its own

The recorder writes checkpoints of relations itself: static constants, threads, waiting constants
and descriptions of single threads.  All of them are one writer's work from its beginning to its
end (`writeRelations`).  `relationEntries` says which entries that publishes: those that are cut
off on the way, and the last one unless a segment meets a fault.

The ways in which that can go are those of `Writer.TakingAll` for a row of relations, and those of
`Writing` for the whole; what is known of such a checkpoint is shown by cases on them.
`Sound.writeRelations` says that the whole is a trade that publishes just these entries.  The writer
has entered the epoch and left it again, so the epoch protocol is as it was.
-/
import TraceRecorder.Proofs.Recorder.Writers
import TraceRecorder.Recorder.Emission

namespace TraceRecorder

open Fallible (Ends)

namespace Writer

/-! ## 1. A row of segments -/

/-- The entries that are cut off while some relations are written. -/
def cutOffs (w : Writer) : List Relation → Recorder → List Bytes
  | [], _ => []
  | relation :: rest, r =>
    (w.cutOff? relation.encode r.clock).toList ++
      match Fallible.runOn (w.append relation.encode) r with
      | (.ok (.ok _, w), r) => w.cutOffs rest r
      | _ => []

variable {w : Writer} {r : Recorder} {out : List Buffer} {e : Epoch}

theorem Gone.runOn_appendAll (hw : w.Gone) (relations : List Relation) :
    Fallible.runOn (w.appendAll relations) r = (.ok (.ok (), w), r) := by
  induction relations with
  | nil => rfl
  | cons relation rest ih =>
    rw [appendAll, Fallible.runOn_bind, hw.runOn_append]
    exact ih

theorem Gone.cutOffs_eq (hw : w.Gone) (relations : List Relation) : w.cutOffs relations r = [] := by
  induction relations with
  | nil => rfl
  | cons relation rest ih =>
    rw [cutOffs, hw.cutOff?_eq, hw.runOn_append]
    exact ih

theorem ends_fail_value (w : Writer) (fault : Fault) (r : Recorder) :
    Ends (w.fail fault) r fun answer _ => ∃ outcome w', answer = .ok (outcome, w') := by
  unfold fail
  split <;> exact ⟨_, _, rfl⟩

theorem ends_place_value (w : Writer) (b : Buffer) (segment : Bytes) (r : Recorder) :
    Ends (w.place b segment) r fun answer _ => ∃ outcome w', answer = .ok (outcome, w') := by
  unfold place
  split
  · exact ⟨_, _, rfl⟩
  · exact ends_fail_value _ _ r

theorem ends_append_value (w : Writer) (segment : Bytes) (r : Recorder) :
    Ends (w.append segment) r fun answer _ => ∃ outcome w', answer = .ok (outcome, w') := by
  unfold append
  split
  · exact ⟨_, _, rfl⟩
  · exact ⟨_, _, rfl⟩
  · split
    · exact ends_place_value _ _ _ r
    · split
      · refine Ends.attempt (.self _ _) ?_
        rintro (fault | renewed) r₁ -
        · exact ends_fail_value _ fault r₁
        · exact ends_place_value _ renewed segment r₁
      · refine Ends.after (Fallible.runOn_get r) (Ends.attempt (.self _ _) ?_)
        rintro (fault | fresh) r₁ -
        · exact ends_fail_value _ fault r₁
        · dsimp only
          split
          · exact ends_place_value _ _ segment r₁
          · exact ⟨_, _, rfl⟩

/-- **The ways in which a row of relations is taken**: there is none; or the first one meets a
fault, and the others are left out; or it is taken, and the others follow.  The entries are those
that are cut off meanwhile. -/
inductive TakingAll : Writer → List Relation → Recorder → Except Fault Unit → Writer → Recorder →
    List Bytes → Prop where
  | nothing (w : Writer) (r : Recorder) : TakingAll w [] r (.ok ()) w r []
  | failed {w w₁ : Writer} {relation : Relation} {r r₁ : Recorder} {fault : Fault}
      (hrun : Fallible.runOn (w.append relation.encode) r = (.ok (.error fault, w₁), r₁))
      (rest : List Relation) :
      TakingAll w (relation :: rest) r (.error fault) w₁ r₁
        (w.cutOff? relation.encode r.clock).toList
  | taken {w w₁ w' : Writer} {relation : Relation} {rest : List Relation} {r r₁ r' : Recorder}
      {outcome : Except Fault Unit} {es : List Bytes}
      (hrun : Fallible.runOn (w.append relation.encode) r = (.ok (.ok (), w₁), r₁))
      (hrest : TakingAll w₁ rest r₁ outcome w' r' es) :
      TakingAll w (relation :: rest) r outcome w' r'
        ((w.cutOff? relation.encode r.clock).toList ++ es)

/-- **How a row of relations is taken**, one after the other: up to the first one that meets a
fault, or to the end.  The entries that are cut off on the way are listed beside, and all that is
said of a row later is by induction on this. -/
theorem takingAll (w : Writer) (relations : List Relation) (r : Recorder) :
    Ends (w.appendAll relations) r fun answer r' => ∃ outcome w', answer = .ok (outcome, w') ∧
      w.TakingAll relations r outcome w' r' (w.cutOffs relations r) := by
  induction relations generalizing w r with
  | nil => exact Ends.of_run (Fallible.runOn_pure _ _) ⟨_, w, rfl, .nothing w r⟩
  | cons relation rest ih =>
    rcases hrun : Fallible.runOn (w.append relation.encode) r with ⟨answer, r₁⟩
    obtain ⟨outcome, w₁, rfl⟩ := (w.ends_append_value relation.encode r).run_eq hrun
    rw [appendAll, cutOffs, hrun]
    refine Ends.after hrun ?_
    cases outcome with
    | error fault =>
      refine Ends.of_run (Fallible.runOn_pure _ _) ⟨_, w₁, rfl, ?_⟩
      rw [List.append_nil]
      exact .failed hrun rest
    | ok _ =>
      refine (ih w₁ r₁).mono ?_
      rintro _ r' ⟨outcome, w', rfl, hrest⟩
      exact ⟨outcome, w', rfl, .taken hrun hrest⟩

namespace TakingAll

variable {w' : Writer} {r' : Recorder} {relations : List Relation} {outcome : Except Fault Unit}
  {es : List Bytes}

theorem of_gone (h : w.TakingAll relations r outcome w' r' es) (hw : w.Gone) :
    outcome = .ok () ∧ w' = w ∧ r' = r ∧ es = [] := by
  induction h with
  | nothing => exact ⟨rfl, rfl, rfl, rfl⟩
  | failed hrun =>
    rw [hw.runOn_append] at hrun
    cases hrun
  | taken hrun _ ih =>
    rw [hw.runOn_append] at hrun
    cases hrun
    obtain ⟨rfl, rfl, rfl, rfl⟩ := ih hw
    rw [hw.cutOff?_eq]
    exact ⟨rfl, rfl, rfl, rfl⟩

/-- **One relation after the other.**  Unless memory is refused the writer is left with the last
run, or it is gone. -/
theorem trades (h : w.TakingAll relations r outcome w' r' es) (hw : w.Valid e)
    (hs : r.Sound (w.buffer.toList ++ out) e) :
    w'.identity = w.identity ∧ (Refused outcome ∨
      Recorder.Trades r (w.buffer.toList ++ out) r' (w'.buffer.toList ++ out) e ⟨es, []⟩ ∧
        w'.Valid e) := by
  induction h with
  | nothing => exact ⟨rfl, .inr ⟨.refl hs, hw⟩⟩
  | failed hrun =>
    obtain ⟨_, _, ⟨⟩, hid, hpost⟩ := (hw.append hs _).run_eq hrun
    exact ⟨hid, hpost⟩
  | taken hrun _ ih =>
    obtain ⟨_, _, ⟨⟩, hid, hpost⟩ := (hw.append hs _).run_eq hrun
    obtain ⟨ht, hw₁⟩ := hpost.resolve_left (not_refused_ok _)
    obtain ⟨hid', hpost'⟩ := ih hw₁ ht.sound
    exact ⟨hid'.trans hid, hpost'.imp id fun ⟨ht', hw'⟩ => ⟨ht.trans ht', hw'⟩⟩

end TakingAll

theorem runOn_abandon (w : Writer) (r : Recorder) :
    ∃ r', Fallible.runOn w.abandon r = (.ok (), r') := by
  unfold abandon unpin
  cases w.pinned <;> exact ⟨_, rfl⟩

end Writer

namespace Recorder

variable {r : Recorder} {out : List Buffer} {e : Epoch}

/-! ## 2. A checkpoint of relations -/

/-- **The entries of a checkpoint of relations.** -/
def relationEntries (thread : ThreadId) (kind : BufferKind) (duringDrain : Bool)
    (relations : List Relation) (r : Recorder) : Published :=
  match relations.filter fun relation => !relation.isEmpty with
  | [] => {}
  | relation :: rest =>
    match Fallible.runOn (Writer.start thread kind duringDrain) r with
    | (.error _, _) => {}
    | (.ok w, r) =>
      { cut := w.cutOffs (relation :: rest) r
        last := match Fallible.runOn (w.appendAll (relation :: rest)) r with
          | (.ok (.ok _, w), r) => (w.lastPiece? r.clock).toList
          | _ => [] }

/-- A writer that began and ended leaves the epoch protocol as it was. -/
theorem Trades.leave {r' : Recorder} {p : Published} {w : Writer} {thread : ThreadId}
    {kind : BufferKind} {duringDrain : Bool}
    (h : Trades (Writer.entered duringDrain r) out r' out e p)
    (hw : w.identity =
      (thread, kind, r.clock, if duringDrain then none else some r.epoch.current)) :
    Trades r out (w.left r') out e p := by
  obtain ⟨-, -, -, hpinned⟩ := Writer.identity_eq_iff.1 hw
  cases duringDrain with
  | true =>
    rw [Writer.left, hpinned]
    exact h
  | false =>
    have hm := h.moveEpoch fun c => c.leave r.epoch.current
    have hback : (Writer.entered false r).moveEpoch (fun c => c.leave r.epoch.current) = r := by
      show { r with epoch := r.epoch.enter.leave r.epoch.current } = r
      rw [EpochController.leave_enter]
    rw [hback] at hm
    rw [Writer.left, hpinned]
    exact hm

/-- **The ways in which a checkpoint of relations goes.**  No relation has pairs; or no writer can
begin; or a relation meets a fault, and the writer is abandoned; or the writer takes them all and
ends. -/
inductive Writing (thread : ThreadId) (kind : BufferKind) (duringDrain : Bool)
    (relations : List Relation) (r : Recorder) :
    Except Fault Nat → Recorder → Published → Prop where
  | nothing (hrows : relations.filter (fun relation => !relation.isEmpty) = []) :
      Writing thread kind duringDrain relations r (.ok 0) r {}
  | refused {fault : Fault} {r' : Recorder}
      (hstart : Fallible.runOn (Writer.start thread kind duringDrain) r = (.error fault, r')) :
      Writing thread kind duringDrain relations r (.error fault) r' {}
  | abandoned {fault : Fault} {w w' : Writer} {r₁ r₂ r' : Recorder} {cut : List Bytes}
      (hrows : relations.filter (fun relation => !relation.isEmpty) ≠ [])
      (hstart : Fallible.runOn (Writer.start thread kind duringDrain) r = (.ok w, r₁))
      (htaking : w.TakingAll (relations.filter fun relation => !relation.isEmpty) r₁
        (.error fault) w' r₂ cut)
      (habandon : Fallible.runOn w'.abandon r₂ = (.ok (), r')) :
      Writing thread kind duringDrain relations r (.error fault) r' ⟨cut, []⟩
  | ended {answer : Except Fault Nat} {w w' : Writer} {r₁ r₂ r' : Recorder} {cut : List Bytes}
      (hrows : relations.filter (fun relation => !relation.isEmpty) ≠ [])
      (hstart : Fallible.runOn (Writer.start thread kind duringDrain) r = (.ok w, r₁))
      (htaking : w.TakingAll (relations.filter fun relation => !relation.isEmpty) r₁
        (.ok ()) w' r₂ cut)
      (hfinish : Fallible.runOn w'.finish r₂ = (answer, r')) :
      Writing thread kind duringDrain relations r answer r'
        ⟨cut, (w'.lastPiece? r₂.clock).toList⟩

/-- **How a checkpoint of relations goes**, step by step: nothing is written if all relations are
empty; otherwise a writer begins, takes the others one by one and ends, or is abandoned at the first
fault.  What can be said of such a checkpoint is read off these cases. -/
theorem writing (thread : ThreadId) (kind : BufferKind) (duringDrain : Bool)
    (relations : List Relation) (r : Recorder) :
    Ends (writeRelations thread kind duringDrain relations) r fun answer r' =>
      Writing thread kind duringDrain relations r answer r'
        (relationEntries thread kind duringDrain relations r) := by
  unfold writeRelations relationEntries
  cases hcons : relations.filter (fun relation => !relation.isEmpty) with
  | nil => exact Ends.of_run (Fallible.runOn_pure _ _) (.nothing hcons)
  | cons relation rest =>
    have hrows : relations.filter (fun relation => !relation.isEmpty) ≠ [] :=
      hcons ▸ List.cons_ne_nil _ _
    dsimp only
    rw [← hcons]
    rcases hstart : Fallible.runOn (Writer.start thread kind duringDrain) r with ⟨fault | w, r₁⟩
    · exact Ends.stop hstart (.refused hstart)
    refine Ends.after hstart ?_
    have htaking := w.takingAll (relations.filter fun relation => !relation.isEmpty) r₁
    rcases hrun : Fallible.runOn
      (w.appendAll (relations.filter fun relation => !relation.isEmpty)) r₁ with ⟨answer, r₂⟩
    obtain ⟨outcome, w', rfl, htaking⟩ := htaking.run_eq hrun
    refine Ends.after hrun ?_
    dsimp only
    rw [hrun]
    cases outcome with
    | error fault =>
      obtain ⟨r₃, habandon⟩ := w'.runOn_abandon r₂
      exact Ends.after habandon (Ends.of_run (Fallible.runOn_throw _ _)
        (.abandoned hrows hstart htaking habandon))
    | ok _ => exact Ends.of_run rfl (.ended hrows hstart htaking rfl)

theorem exists_writing (thread : ThreadId) (kind : BufferKind) (duringDrain : Bool)
    (relations : List Relation) (r : Recorder) :
    ∃ answer r', Writing thread kind duringDrain relations r answer r'
      (relationEntries thread kind duringDrain relations r) :=
  ⟨_, _, writing thread kind duringDrain relations r⟩

/-- **A checkpoint of relations publishes its entries**, unless memory is refused.  The buffers that
are out stay out, and what is published is known beforehand, from the relations and the recorder. -/
theorem Sound.writeRelations (h : r.Sound out e) (thread : ThreadId) (kind : BufferKind)
    (duringDrain : Bool) (he : Fallible.runOn (leaseEpoch duringDrain) r = (.ok e, r))
    (relations : List Relation) :
    Ends (writeRelations thread kind duringDrain relations) r fun answer r' => Refused answer ∨
      Trades r out r' out e (relationEntries thread kind duringDrain relations r) := by
  refine (writing thread kind duringDrain relations r).mono ?_
  intro answer r' hwriting
  have hbegan := Writer.ends_start h thread kind duringDrain he
  generalize relationEntries thread kind duringDrain relations r = published at hwriting ⊢
  cases hwriting with
  | nothing => exact .inr (.refl h)
  | refused hstart => exact .inl ⟨_, rfl, hbegan.run_eq hstart⟩
  | abandoned hrows hstart htaking habandon =>
    obtain ⟨ht, hw, -, -, hid⟩ := hbegan.run_eq hstart
    obtain ⟨hid', hpost⟩ := htaking.trades (.of_start hw) ht.sound
    refine hpost.imp Refused.throw ?_
    rintro ⟨ht', hw'⟩
    obtain ⟨r₃, -, rfl, ht''⟩ := (hw'.abandon ht'.sound).run_eq habandon
    exact ((ht.nothing_trans ht').trans_nothing ht'').leave (hid'.trans hid)
  | ended hrows hstart htaking hfinish =>
    obtain ⟨ht, hw, -, -, hid⟩ := hbegan.run_eq hstart
    obtain ⟨hid', hpost⟩ := htaking.trades (.of_start hw) ht.sound
    obtain ⟨ht', hw'⟩ := hpost.resolve_left (not_refused_ok _)
    obtain ⟨n, r₃, rfl, rfl, ht'', -⟩ := (hw'.finish ht'.sound).run_eq hfinish
    have hall := (ht.nothing_trans ht').trans ht''
    rw [Published.cut_append_last] at hall
    exact .inr (hall.leave (hid'.trans hid))

/-! ## 3. Constants and threads -/

def staticEntries (thread : ThreadId) (r : Recorder) : Published :=
  r.relationEntries thread .global false r.statics

def threadEntries (thread : ThreadId) (r : Recorder) : Published :=
  r.relationEntries thread .global false (ThreadInfo.table r.host.liveThreads)

/-- The entries that make a chunk readable alone. -/
def staticAndThreadEntries (r : Recorder) : Published :=
  r.staticEntries recorderThread ++
    match Fallible.runOn (writeStatics recorderThread) r with
    | (.ok _, r) => r.threadEntries recorderThread
    | (.error _, _) => {}

def typeSetEntries (duringDrain : Bool) (r : Recorder) : Published :=
  relationEntries recorderThread .global duringDrain r.typeSet.relations { r with typeSet := [] }

/-- The entries that describe one thread. -/
def checkpointEntries (thread : ThreadInfo) (id : Option ThreadId) (mounted : Option ThreadInfo)
    (r : Recorder) : Published :=
  let relations := thread.checkpointRelations id mounted
  match mounted with
  | some v => r.relationEntries v.id .virtualThreadLocal false relations
  | none => r.relationEntries thread.id .threadLocal false relations

theorem Sound.writeStatics (h : r.Sound out r.epoch.current) (thread : ThreadId) :
    Ends (writeStatics thread) r fun answer r' => Refused answer ∨
      Trades r out r' out r.epoch.current (r.staticEntries thread) :=
  Ends.after (Fallible.runOn_get r) (h.writeRelations thread .global false rfl r.statics)

theorem Sound.writeThreads (h : r.Sound out r.epoch.current) (thread : ThreadId) :
    Ends (writeThreads thread) r fun answer r' => Refused answer ∨
      Trades r out r' out r.epoch.current (r.threadEntries thread) :=
  Ends.after (Fallible.runOn_get r) (h.writeRelations thread .global false rfl _)

/-- **The static constants and the threads**, the latter only if the former met no fault. -/
theorem Sound.writeStaticsAndThreads (h : r.Sound out r.epoch.current) :
    Ends writeStaticsAndThreads r fun answer r' => Refused answer ∨
      Trades r out r' out r.epoch.current r.staticAndThreadEntries := by
  unfold Recorder.writeStaticsAndThreads staticAndThreadEntries
  have hstatics := h.writeStatics recorderThread
  rcases hrun : Fallible.runOn (Recorder.writeStatics recorderThread) r with ⟨fault | n, r₁⟩
  · refine Ends.stop hrun ((hstatics.run_eq hrun).imp Refused.throw ?_)
    intro ht
    rw [Published.append_nothing]
    exact ht
  · have ht := (hstatics.run_eq hrun).resolve_left (not_refused_ok _)
    have hcurrent : r₁.epoch.current = r.epoch.current := by rw [ht.epoch]
    have hthreads := Sound.writeThreads (hcurrent.symm ▸ ht.sound) recorderThread
    rw [hcurrent] at hthreads
    refine Ends.after hrun (hthreads.bind ?_ ?_)
    · rintro m r' hpost
      refine Ends.of_run (Fallible.runOn_pure _ _) (.inr ?_)
      exact ht.trans (hpost.resolve_left (not_refused_ok _))
    · rintro fault r' hpost
      exact hpost.imp Refused.throw ht.trans

theorem Sound.withoutTypeSet (h : r.Sound out e) :
    ({ r with typeSet := [] } : Recorder).Sound out e :=
  h.alike (fun kind => by cases kind <;> rfl) rfl rfl rfl

/-- **The waiting constants are published** and wait no more. -/
theorem Sound.writeTypeSet (h : r.Sound out e) (duringDrain : Bool)
    (he : Fallible.runOn (leaseEpoch duringDrain) { r with typeSet := [] } =
      (.ok e, { r with typeSet := [] })) :
    Ends (writeTypeSet duringDrain) r fun answer r' => Refused answer ∨
      Trades { r with typeSet := [] } out r' out e (r.typeSetEntries duringDrain) := by
  unfold Recorder.writeTypeSet
  exact Ends.after (Fallible.runOn_get r) (Ends.after (Fallible.runOn_set _ _)
    (h.withoutTypeSet.writeRelations recorderThread .global duringDrain he r.typeSet.relations))

theorem Sound.writeCheckpoint (h : r.Sound out r.epoch.current) (thread : ThreadInfo)
    (id : Option ThreadId) (mounted : Option ThreadInfo) :
    Ends (writeCheckpoint thread id mounted) r fun answer r' => Refused answer ∨
      Trades r out r' out r.epoch.current (r.checkpointEntries thread id mounted) := by
  unfold Recorder.writeCheckpoint checkpointEntries
  cases mounted with
  | some v => exact h.writeRelations v.id .virtualThreadLocal false rfl _
  | none => exact h.writeRelations thread.id .threadLocal false rfl _

end Recorder

end TraceRecorder
