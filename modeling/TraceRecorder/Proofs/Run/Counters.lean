/-
# The counters agree with the chunks

A recorder counts flushpoints when it registers a flushed buffer and checkpoints when a writer ends.
`Entry.flag?` reads from an entry itself which of the two it is, and in every run the counters say
how many entries of either sort were committed (`Booked.countP_traces`).

A run is `Lossless` if nothing is discarded, no sink refuses a call and new sinks are empty;
checkpoints may be dropped or abandoned.  Its entries are `Accounted` for: they are in buffers or in
sinks.  So once the current epoch is drained an independent reader finds in the sinks together just
as many entries of either sort, and just as many bytes, as were counted (`Counted`), and if only
relations were written so do the summaries of the chunks (`Summed`).

* `Sound.seals`: what a move publishes is a run of segments behind a header that says so;
* `Sound.unsent_step`, `Sound.runs_step`: what holds of a move of which nothing is lost;
* `Accounted.counted` and `Accounted.summed`: what a reader finds then.
-/
import TraceRecorder.Proofs.Recorder.Seals
import TraceRecorder.Proofs.Run.Conservation
import TraceRecorder.Proofs.Run.Delivery
import TraceRecorder.Proofs.Run.ReadBack

namespace TraceRecorder

open Fallible (Ends)

/-! ## 1. Summaries -/

/-- **Summaries count all entries of their chunks**, and all bytes.  The summary of each sink counts
the flags of the headers that a reader finds there, so their sums count those of all sinks. -/
theorem Summary.totals {sinks : List Sink}
    (h : ∀ sink ∈ sinks, ∃ s, Summary.ofChunk sink.content = .ok s) :
    ∃ summaries, sinks.mapM (fun sink => Summary.ofChunk sink.content) = .ok summaries ∧
      (summaries.map Summary.flushpoints).sum =
        (sinks.flatMap fun sink => (Entry.readAll sink.content).items).countP
          (·.header.flushpoint) ∧
      (summaries.map Summary.checkpoints).sum =
        (sinks.flatMap fun sink => (Entry.readAll sink.content).items).countP
          (!·.header.flushpoint) ∧
      (summaries.map Summary.bytes).sum = (sinks.flatMap Sink.content).length := by
  induction sinks with
  | nil => exact ⟨[], rfl, rfl, rfl, rfl⟩
  | cons sink sinks ih =>
    obtain ⟨⟨s, hs⟩, hrest⟩ := List.forall_mem_cons.1 h
    obtain ⟨summaries, hsummaries, hflushpoints, hcheckpoints, hbytes⟩ := ih hrest
    have henters := Summary.enters_of_ofChunk hs
    refine ⟨s :: summaries, by rw [List.mapM_cons, hs, hsummaries]; rfl, ?_, ?_, ?_⟩
    · rw [List.map_cons, List.sum_cons, hflushpoints, List.flatMap_cons, List.countP_append,
        henters.flushpoints]
    · rw [List.map_cons, List.sum_cons, hcheckpoints, List.flatMap_cons, List.countP_append,
        henters.checkpoints]
    · rw [List.map_cons, List.sum_cons, hbytes, List.flatMap_cons, List.length_append,
        henters.bytes]

/-! ## 2. Moves -/

/-- A segment that is written is a relation. -/
def Move.Relational : Move → Prop
  | .append _ segment => ∃ relation : Relation, segment = relation.encode
  | _ => True

/-- **No published entry is lost in the move**: nothing is discarded, no sink refuses a call, and a
new sink is empty. -/
structure Move.Lossless (m : Move) (run : Run) : Prop where
  admitted : m.admitted run
  delivers : m.delivers run = true
  fresh : (m.ledger run).brought = []

instance (m : Move) (run : Run) : Decidable (m.Lossless run) :=
  decidable_of_iff (m.admitted run ∧ m.delivers run = true ∧ (m.ledger run).brought = [])
    ⟨fun ⟨ha, hd, hf⟩ => ⟨ha, hd, hf⟩, fun h => ⟨h.admitted, h.delivers, h.fresh⟩⟩

namespace Run

variable {options : RecorderOptions} {run : Run} {l : Ledger} {m : Move}
  {past : List (Run × Move)} {P : List Bytes → Prop}

/-- **What a move publishes is sealed.**  Writers publish the runs that they have, and the recorder
itself runs of relations. -/
theorem Sound.seals (h : run.Sound options)
    (hw : ∀ w ∈ run.writers, w.Runs P run.recorder.epoch.current)
    (hown : ∀ segments, Relation.Encodes segments → P segments) (m : Move) :
    (m.ledger run).published.Seals options P := by
  have hr := h.recorder
  have hopts := h.options
  have hown {p : Published} (hp : p.Seals run.recorder.options Relation.Encodes) :
      p.Seals options P := hopts ▸ hp.mono hown
  cases m with
  | append writer segment =>
    refine ⟨fun e he => ?_, fun e he => (by cases he)⟩
    cases hget : run.writers[writer]? with
    | none => simp [Move.ledger, hget] at he
    | some w =>
      have hseals := (hw w (List.mem_of_getElem? hget)).cutOff (h.seen hget).1 segment
        run.recorder.clock
      exact hopts ▸ hseals e (by simpa [Move.ledger, hget] using he)
  | finish writer =>
    refine ⟨fun e he => (by cases he), fun e he => ?_⟩
    cases hget : run.writers[writer]? with
    | none => simp [Move.ledger, hget] at he
    | some w =>
      have hseals := (hw w (List.mem_of_getElem? hget)).lastPiece (h.seen hget).1
        run.recorder.clock
      exact hopts ▸ hseals e (by simpa [Move.ledger, hget] using he)
  | writeStatics thread =>
    exact hown (hr.relationEntries_seals thread .global false rfl run.recorder.statics)
  | writeThreads thread => exact hown (hr.relationEntries_seals thread .global false rfl _)
  | writeStaticsAndThreads => exact hown hr.staticAndThreadEntries_seals
  | writeTypeSet => exact hown (hr.typeSetEntries_seals false rfl)
  | writeCheckpoint thread id mounted => exact hown (hr.checkpointEntries_seals thread id mounted)
  | writeSimplified id =>
    have hone := hr.relationEntries_seals id .virtualThreadLocal false rfl
      [ThreadInfo.simplified id]
    exact hown hone
  | flushTypeSet => exact hown (hr.relationEntries_seals recorderThread .global false rfl _)
  | rotate => exact hown hr.rotationEntries_seals
  | _ => exact .nothing

/-- **All that was ever published is sealed.** -/
theorem Booked.seals (h : Booked options run l) :
    l.published.Seals options fun _ => True := by
  induction h with
  | create h => exact .nothing
  | step c m hm ih =>
    have hs := c.reachable.sound
    exact ih.append (hs.seals (fun w hw => (hs.writers w hw).1.runs) (fun _ _ => trivial) m)

/-- **All entries that were ever committed**, where they are now: in the bytes that sinks accepted,
in buffers, discarded, or detached and not sent. -/
def traces (run : Run) (l : Ledger) : List Bytes :=
  Entry.split l.accepted ++ run.entries ++ l.discarded ++ l.unsent

/-- **The traces of a run are the entries that were published**, each as often, wherever they are by
now; and sinks that came empty have just the accepted bytes. -/
theorem Booked.traces_perm (h : Booked options run l) :
    (run.traces l).Perm l.published.entries ∧ (l.brought = [] → run.recorded = l.accepted) := by
  obtain ⟨r, hpooled, hsink, -, hsettles⟩ := h.settles
  have hentries : ({ recorder := r } : Run).entries = [] := by
    rw [entries, Recorder.entries, hpooled]
    rfl
  have hrecorded : ({ recorder := r } : Run).recorded = [] := by
    rw [recorded_eq, Recorder.chunk, hsink]
    rfl
  refine ⟨List.perm_iff_count.2 fun x => ?_, fun hb => ?_⟩
  · have hx := hsettles.entries x
    rw [hentries, List.count_nil] at hx
    simp only [traces, List.count_append]
    omega
  · rw [hsettles.recorded hb, hrecorded, List.nil_append]

/-- **Flushpoints and other entries are counted as they are published.** -/
theorem Booked.countP_traces (h : Booked options run l) :
    (run.traces l).countP (Entry.flag? · == some true) = run.recorder.stats.flushes ∧
      (run.traces l).countP (Entry.flag? · == some false) =
        run.recorder.stats.checkpointsWritten := by
  obtain ⟨r, -, -, hstats, hsettles⟩ := h.settles
  obtain ⟨hcut, hlast⟩ := h.seals.countP_entries
  rw [h.traces_perm.1.countP_eq, h.traces_perm.1.countP_eq, hcut, hlast, hsettles.cut,
    hsettles.last, hstats]
  exact ⟨(Nat.zero_add _).symm, (Nat.zero_add _).symm⟩

/-! ## 3. Runs of which nothing is lost -/

/-- **A run of which no published entry is lost**, and its past: the moves, each with the run in
which it was made. -/
inductive Lossless (options : RecorderOptions) : List (Run × Move) → Run → Prop where
  | create {host : Host} {r : Recorder} (h : Recorder.create options host = .ok r) :
      Lossless options [] { recorder := r }
  | step {past : List (Run × Move)} {run : Run} (c : Lossless options past run) (m : Move)
      (hm : m.Lossless run) : Lossless options (past ++ [(run, m)]) (run.step m)

/-- **Where the published entries are**: in buffers and in sinks.  They have runs of relations in
them if only relations were written. -/
structure Accounted (options : RecorderOptions) (past : List (Run × Move)) (run : Run)
    (l : Ledger) : Prop where
  booked : Booked options run l
  discarded : l.discarded = []
  unsent : l.unsent = []
  brought : l.brought = []
  rowed : run.Rowed
  relational : (∀ x ∈ past, x.2.Relational) →
    (∀ w ∈ run.writers, w.Runs Relation.Encodes run.recorder.epoch.current) ∧
      l.published.Seals options Relation.Encodes

/-- **Unless the sink refuses a call a drain sends all that it detaches.** -/
theorem unsent_of_collects {x : Action Nat} {first : Action Detached} {emissions : List Emission}
    {out : List Buffer} {e : Epoch} (hact : run.act m = run.perform x)
    (hx : x = do let d ← first; Recorder.emit d)
    (hm : m.admitted run) (hd : m.delivers run = true)
    (h : Recorder.Collects first emissions run.recorder out e) :
    run.recorder.unsent first = [] := by
  have hpost := h.unsent_eq_nil
  rw [← hx] at hpost
  have hg := hm.2
  have hsink := Move.fault_ne_sink hd
  simp only [Move.granted, fault?, hact, Run.perform] at hg hsink
  rcases hrun : Fallible.runOn x run.recorder with ⟨answer, r'⟩
  rw [hrun] at hg hsink
  refine ((hpost.run_eq hrun).resolve_left (not_refused hg)).resolve_left ?_
  rintro ⟨report, rfl⟩
  exact hsink report rfl

theorem Sound.unsent_step (h : run.Sound options) (hm : m.admitted run)
    (hd : m.delivers run = true) : (m.ledger run).unsent = [] := by
  have hr := h.recorder
  cases m with
  | write => exact unsent_of_collects rfl rfl hm hd (hr.detachForWrite_collects h.barrier)
  | flushTypeSet =>
    exact unsent_of_collects rfl Recorder.flushTypeSet_eq hm hd
      (hr.detachForFlush_collects h.barrier)
  | rotate => exact unsent_of_collects rfl rfl hm hd (hr.detachForRotation_collects h.barrier)
  | _ => rfl

/-- **Writers go on with runs that have a property**, if it is that of no segment and stays with
each that is written. -/
theorem Sound.runs_step (h : run.Sound options) (hm : m.admitted run) (hnone : P [])
    (hmore : ∀ writer segment, m = .append writer segment → ∀ run, P run → P (run ++ [segment]))
    (hw : ∀ w ∈ run.writers, w.Runs P run.recorder.epoch.current) :
    ∀ w ∈ (run.step m).writers, w.Runs P (run.step m).recorder.epoch.current := by
  intro w hmem
  -- Writers that were open before have their runs already, so only one that is new needs a look.
  by_cases hold : w ∈ run.writers
  · exact h.current_eq (h.step m hm).1 hold hmem rfl ▸ hw w hold
  by_cases hby : m.byRecorder = true
  · exact absurd (writers_step hby ▸ hmem) hold
  cases m with
  | start thread kind =>
    obtain ⟨w', r', hstep, hon, hnew, -⟩ := h.started thread kind hm
    rw [hstep] at hmem ⊢
    obtain rfl := List.mem_singleton.1 ((List.mem_append.1 hmem).resolve_left hold)
    rw [hon.current]
    exact hnew.imp id fun ⟨b, hb⟩ => ⟨b, [], hb, hnone⟩
  | append writer segment =>
    cases hget : run.writers[writer]? with
    | none => exact absurd (by simpa [Run.step, Run.act, Run.append, hget] using hmem) hold
    | some w₀ =>
      obtain ⟨outcome, w', r', hrun, hnot, hact⟩ := h.runOn_append hget hm
      have hstep : run.step (.append writer segment) =
          { run with recorder := r', writers := run.writers.set writer w' } :=
        congrArg Prod.snd hact
      rw [hstep] at hmem ⊢
      obtain rfl := (List.mem_or_eq_of_mem_set hmem).resolve_left hold
      have hruns := (hw w₀ (List.mem_of_getElem? hget)).append (h.seen hget).1 hnone
        (hmore writer segment rfl)
      obtain ⟨_, _, ⟨⟩, hpost⟩ := hruns.run_eq hrun
      obtain ⟨-, -, hepoch, hruns⟩ := hpost.resolve_left hnot
      exact congrArg EpochController.current hepoch ▸ hruns
  | finish writer | abandon writer =>
    refine absurd ?_ hold
    cases hget : run.writers[writer]? with
    | none => simpa [Run.step, Run.act, Run.close, hget] using hmem
    | some w₀ =>
      simp only [Run.step, Run.act, close_eq hget] at hmem
      exact List.mem_of_mem_eraseIdx hmem
  | _ => exact absurd rfl hby

namespace Accounted

theorem create {host : Host} {r : Recorder} (h : Recorder.create options host = .ok r) :
    Accounted options [] { recorder := r } {} := by
  obtain ⟨-, -, hsink, -⟩ := Recorder.sound_create h
  refine ⟨.create h, rfl, rfl, rfl, ?_, fun _ => ⟨?_, .nothing⟩⟩
  · rintro sink hsinks
    simp [sinks, hsink] at hsinks
  · exact fun _ hw => by cases hw

/-- **One more move of which nothing is lost**: nothing is discarded, no sink refuses a call, and a
new sink is empty.  Then the entries stay accounted for, whatever their segments are and however
many of them a writer was given. -/
theorem step (h : Accounted options past run l) (hm : m.Lossless run) :
    Accounted options (past ++ [(run, m)]) (run.step m) (l ++ m.ledger run) := by
  have hs := h.booked.reachable.sound
  refine ⟨h.booked.step m hm.admitted, ?_, ?_, ?_, ?_, fun hall => ?_⟩
  · rw [Ledger.discarded_append, h.discarded, discarded_step hm.delivers]
    rfl
  · rw [Ledger.unsent_append, h.unsent, hs.unsent_step hm.admitted hm.delivers]
    rfl
  · rw [Ledger.brought_append, h.brought, hm.fresh]
    rfl
  · exact hs.rowed_step hm.admitted hm.fresh h.rowed
  · rw [List.forall_mem_append, List.forall_mem_singleton] at hall
    obtain ⟨hwriters, hseals⟩ := h.relational hall.1
    refine ⟨hs.runs_step hm.admitted .nil ?_ hwriters,
      hseals.append (hs.seals hwriters (fun _ hp => hp) m)⟩
    rintro writer segment rfl segments hp
    obtain ⟨relation, rfl⟩ := hall.2
    exact hp.concat relation

end Accounted

theorem Lossless.accounted (h : Lossless options past run) :
    ∃ l, Accounted options past run l := by
  induction h with
  | create h => exact ⟨{}, .create h⟩
  | step _ m hm ih =>
    obtain ⟨l, ih⟩ := ih
    exact ⟨_, ih.step hm⟩

/-! ## 4. What a reader finds -/

/-- **The entries that a reader finds** in all sinks, one after the other. -/
def views (run : Run) : List Entry :=
  run.sinks.flatMap fun sink => (Entry.readAll sink.content).items

/-- **A reader finds in the sinks what the counters say**: no damage, as many flushpoints and as
many other entries, and as many bytes. -/
structure Counted (run : Run) : Prop where
  whole : ∀ sink ∈ run.sinks, (Entry.readAll sink.content).damage = none
  flushpoints : run.views.countP (·.header.flushpoint) = run.recorder.stats.flushes
  checkpoints : run.views.countP (!·.header.flushpoint) = run.recorder.stats.checkpointsWritten
  bytes : (run.views.map (·.header.size.toNat)).sum = run.recorder.stats.bytesWritten

/-- **The summaries of all chunks** say so too. -/
def Summed (run : Run) : Prop :=
  ∃ summaries, run.sinks.mapM (fun sink => Summary.ofChunk sink.content) = .ok summaries ∧
    (summaries.map Summary.flushpoints).sum = run.recorder.stats.flushes ∧
    (summaries.map Summary.checkpoints).sum = run.recorder.stats.checkpointsWritten ∧
    (summaries.map Summary.bytes).sum = run.recorder.stats.bytesWritten

namespace Accounted

theorem traces_eq (h : Accounted options past run l) (he : run.entries = []) :
    run.traces l = Entry.split run.recorded := by
  rw [traces, he, h.discarded, h.unsent, List.append_nil, List.append_nil, List.append_nil,
    h.booked.traces_perm.2 h.brought]

theorem mem_published (h : Accounted options past run l) (he : run.entries = []) {sink : Sink}
    (hsink : sink ∈ run.sinks) {e : Bytes} (hmem : e ∈ Entry.split sink.content) :
    e ∈ l.published.entries := by
  refine h.booked.traces_perm.1.mem_iff.1 ?_
  rw [h.traces_eq he, recorded, (Entry.split_flatMap h.rowed).2]
  exact List.mem_flatMap.2 ⟨sink, hsink, hmem⟩

/-- **A reader counts the entries that were committed**, whatever their segments are: it takes the
sizes and the flags from the headers alone.  All entries are in the sinks once no buffer has any. -/
theorem counted (h : Accounted options past run l) (he : run.entries = []) : run.Counted := by
  have hread : ∀ sink ∈ run.sinks, (Entry.readAll sink.content).damage = none ∧
      (Entry.readAll sink.content).items.map Entry.encode = Entry.split sink.content ∧
      ((Entry.readAll sink.content).items.map (·.header.size.toNat)).sum =
        sink.content.length := by
    refine fun sink hsink => Entry.read_of_views (h.rowed sink hsink) fun e hmem => ?_
    obtain ⟨_, hseals⟩ := h.booked.seals.of_mem (h.mem_published he hsink hmem)
    exact hseals.views
  have hviews : run.views.map Entry.encode = run.traces l := by
    rw [h.traces_eq he, recorded, (Entry.split_flatMap h.rowed).2, views, List.map_flatMap]
    exact List.flatMap_congr fun sink hsink => (hread sink hsink).2.1
  obtain ⟨hcut, hlast⟩ := h.booked.countP_traces
  rw [← hviews, Entry.countP_flag?] at hcut hlast
  refine ⟨fun sink hsink => (hread sink hsink).1, by simpa using hcut, by simpa using hlast, ?_⟩
  rw [h.booked.written h.brought, recorded, List.length_flatMap, views, List.map_flatMap,
    List.flatMap_def, List.sum_flatten, List.map_map]
  exact congrArg List.sum (List.map_congr_left fun sink hsink => (hread sink hsink).2.2)

/-- **If the entries are of relations** the summaries count them too. -/
theorem summed (h : Accounted options past run l) (he : run.entries = [])
    (ho : ∀ kind, options.Modest kind) (hall : l.published.Seals options Relation.Encodes) :
    run.Summed := by
  have hcounted := h.counted he
  have hread : ∀ sink ∈ run.sinks, ∃ s, Summary.ofChunk sink.content = .ok s := by
    intro sink hsink
    have hreadable : ∀ e ∈ Entry.split sink.content, Entry.Readable e := fun e hmem => by
      obtain ⟨_, hseals⟩ := hall.of_mem (h.mem_published he hsink hmem)
      exact hseals.describes ho
    obtain ⟨-, hsummary, -⟩ := Entry.walk_flatten hreadable
    rwa [h.rowed sink hsink] at hsummary
  obtain ⟨summaries, hsummaries, hflushpoints, hcheckpoints, hbytes⟩ := Summary.totals hread
  exact ⟨summaries, hsummaries, hflushpoints.trans hcounted.flushpoints,
    hcheckpoints.trans hcounted.checkpoints, hbytes.trans (h.booked.written h.brought).symm⟩

end Accounted

theorem Sound.entries_write (h : run.Sound options) (hm : Move.write.admitted run)
    (hok : run.fault? .write = none) : (run.step .write).entries = [] :=
  entries_eq_nil ((writers_step rfl).trans (h.writers_eq_nil (hm.1 rfl)))
    (pooled_of_drain rfl hok (h.recorder.write_drains h.barrier))

/-- **The counters agree with the chunks.**  In every run, whatever sinks refuse and however leases
fail, as many flushpoints were counted as there are among all committed entries, and as many
checkpoints as there are other entries.

So if no entry was lost and then the current epoch is drained, a reader finds just as many entries
of either sort in all sinks together, and just as many bytes, as were counted.  It goes by the sizes
in the headers, so it does not matter what the segments are, or whether a word can count them.  If
only relations were written, and entries are shorter than 2 ^ 32, the summaries say the same. -/
theorem counters_agree (options : RecorderOptions) :
    (∀ run l, Booked options run l →
      (run.traces l).countP (Entry.flag? · == some true) = run.recorder.stats.flushes ∧
      (run.traces l).countP (Entry.flag? · == some false) =
        run.recorder.stats.checkpointsWritten) ∧
    ∀ past run, Lossless options past run → Move.write.Lossless run → run.fault? .write = none →
      (run.step .write).Counted ∧
      ((∀ kind, options.Modest kind) → (∀ x ∈ past, x.2.Relational) →
        (run.step .write).Summed) := by
  refine ⟨fun run l h => h.countP_traces, fun past run h hm hok => ?_⟩
  obtain ⟨l, h⟩ := h.accounted
  have hs := h.booked.reachable.sound
  have he := hs.entries_write hm.admitted hok
  refine ⟨(h.step hm).counted he, fun ho hall => ?_⟩
  have hrelational : ∀ x ∈ past ++ [(run, .write)], x.2.Relational :=
    List.forall_mem_append.2 ⟨hall, List.forall_mem_singleton.2 trivial⟩
  exact (h.step hm).summed he ho ((h.step hm).relational hrelational).2

/-- The moves that a run makes, each with the run in which it is made. -/
def trail (run : Run) : List Move → List (Run × Move)
  | [] => []
  | m :: rest => (run, m) :: (run.step m).trail rest

theorem Lossless.walk (c : Lossless options past run) (more : List Move)
    (h : ∀ x ∈ run.trail more, x.2.Lossless x.1) :
    Lossless options (past ++ run.trail more) (run.walk more) := by
  induction more generalizing past run with
  | nil =>
    rw [Run.trail, List.append_nil]
    exact c
  | cons m rest ih =>
    obtain ⟨hm, hrest⟩ := List.forall_mem_cons.1 h
    rw [Run.trail, List.append_cons]
    exact ih (c.step m hm) hrest

/-- A first entry is flushed, no buffer is there for the second one, and the checkpoint is dropped:
the flushpoint is counted and found.  Two more checkpoints go to two sinks. -/
theorem counters_agree_behind_cut :
    let moves : List Move := [.installSink {}, .start 7 .threadLocal,
      .append 0 (Relation.encode ⟨5, [(1, [1, 2, 3])]⟩), .start 9 .threadLocal,
      .append 0 (Relation.encode ⟨6, [(2, List.replicate 10 4)]⟩), .finish 0,
      .append 0 (Relation.encode ⟨5, [(3, [])]⟩), .finish 0, .write, .replaceSink {},
      .writeSimplified 9]
    let run := (small.walk moves).step .write
    run.Counted ∧ run.Summed ∧
      (((small.walk moves).traces (small.book {} moves)).countP (Entry.flag? · == some true) =
        (small.walk moves).recorder.stats.flushes) ∧
      run.sinks.length = 2 ∧ run.recorder.stats.flushes = 1 ∧
      run.recorder.stats.checkpointsWritten = 2 ∧ run.recorder.stats.checkpointsDropped = 1 := by
  intro moves run
  have hfacts : (∀ x ∈ small.trail moves, x.2.Lossless x.1) ∧ small.Admits moves ∧
      Move.write.Lossless (small.walk moves) ∧
      (small.walk moves).fault? .write = none ∧
      (∀ kind ∈ BufferKind.all, smallOptions.Modest kind) ∧
      run.sinks.length = 2 ∧ run.recorder.stats.flushes = 1 ∧
      run.recorder.stats.checkpointsWritten = 2 ∧ run.recorder.stats.checkpointsDropped = 1 := by
    decide +kernel
  obtain ⟨hlossless, hadmits, hwrite, hok, ho, hnumbers⟩ := hfacts
  have hbooked : Booked smallOptions (small.walk moves) _ :=
    (Booked.create create_small).walk moves hadmits
  have hlossless : Lossless smallOptions (small.trail moves) (small.walk moves) :=
    (Lossless.create create_small).walk moves hlossless
  have hrelational : ∀ x ∈ small.trail moves, x.2.Relational := by
    simp [moves, trail, Move.Relational]
  obtain ⟨hcommitted, hfound⟩ := counters_agree smallOptions
  obtain ⟨hcounted, hsummed⟩ := hfound _ _ hlossless hwrite hok
  have hsummed := hsummed (fun kind => ho kind (by cases kind <;> decide)) hrelational
  exact ⟨hcounted, hsummed, (hcommitted _ _ hbooked).1, hnumbers⟩

end Run

end TraceRecorder
