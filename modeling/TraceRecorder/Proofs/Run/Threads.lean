/-
# Rotated chunks describe their threads

A rotation is to make a chunk readable alone: of each thread that the chunk tells of it should have
the group.  So it is if threads are described by the recorder alone (`Move.Foreign`) and nothing
that the recorder tells is lost (`Move.Undisturbed`); what else is written is of no account, and so
are discards, new sinks, and the host's threads that come and go.

A thread and its group may end up in different entries, but the recorder publishes both in one move
and a drain leaves none of the entries that it finds.  So the entries in buffers are `Portrays` all
the time, those of each chunk are too (`Run.Portrays`), and only the group that all virtual threads
share may be missing.  A rotation writes that one into the chunk, where it stays
(`Tells.self_describing`).
-/
import TraceRecorder.Proofs.Chunk.Threads
import TraceRecorder.Proofs.Run.Counters
import TraceRecorder.Proofs.Run.Rotation
import TraceRecorder.Proofs.Run.Violation

namespace TraceRecorder

open Fallible (Ends Keeps)

/-! ## 1. Entries that tell of threads -/

def Relation.Foreign (relation : Relation) : Prop := relation.typeId ≠ ConstantType.thread

instance (relation : Relation) : Decidable relation.Foreign := inferInstanceAs (Decidable (_ ≠ _))

/-- The segments are relations, and none is of threads. -/
def Relation.EncodesForeign (segments : List Bytes) : Prop :=
  ∃ relations : List Relation, (∀ relation ∈ relations, relation.Foreign) ∧
    segments = relations.map Relation.encode

theorem Relation.EncodesForeign.concat {segments : List Bytes}
    (h : Relation.EncodesForeign segments) {relation : Relation} (hf : relation.Foreign) :
    Relation.EncodesForeign (segments ++ [relation.encode]) := by
  obtain ⟨relations, hall, rfl⟩ := h
  exact ⟨relations ++ [relation], List.forall_mem_append.2 ⟨hall, List.forall_mem_singleton.2 hf⟩,
    by rw [List.map_append]; rfl⟩

theorem Grouped.of_foreign_relations {relations : List Relation}
    (h : ∀ relation ∈ relations, relation.Foreign) :
    Grouped (relations.flatMap Relation.constants) := by
  refine .of_foreign fun c hc => ?_
  obtain ⟨relation, hr, hc⟩ := List.mem_flatMap.1 hc
  obtain ⟨pair, -, rfl⟩ := List.mem_map.1 hc
  exact h relation hr

namespace Entry

/-- **All entries can be read, and the constants of all together are grouped.** -/
structure Portrays (es : List Bytes) : Prop where
  readable : ∀ e ∈ es, Readable e
  grouped : Grouped (es.flatMap constantsOf)

namespace Portrays

variable {es es' : List Bytes}

theorem nil : Portrays [] :=
  ⟨fun _ he => (by cases he), .of_foreign fun _ hc => (by cases hc)⟩

theorem append (h : Portrays es) (h' : Portrays es') : Portrays (es ++ es') where
  readable := List.forall_mem_append.2 ⟨h.readable, h'.readable⟩
  grouped := by
    rw [List.flatMap_append]
    exact h.grouped.append h'.grouped

theorem of_perm (h : Portrays es) (hp : es'.Perm es) : Portrays es' where
  readable e he := h.readable e (hp.mem_iff.1 he)
  grouped := h.grouped.of_perm (hp.symm.flatMap_right _)

/-- **Entries that yield grouped constants.** -/
theorem of_yields {constants : List Constant} (hy : Yields es constants)
    (hg : (∀ c ∈ constants, c.Short) → Grouped constants) : Portrays es where
  readable := hy.readable
  grouped := by
    refine (hg fun c hc => ?_).of_perm hy.perm.symm
    obtain ⟨e, he, hc⟩ := List.mem_flatMap.1 (hy.perm.mem_iff.2 hc)
    exact (hy.readable e he).short c hc

/-- **Entries that tell of no thread.** -/
theorem of_seals {o : RecorderOptions} (ho : ∀ kind, o.Modest kind)
    (h : ∀ e ∈ es, ∃ flushpoint, Seals o Relation.EncodesForeign flushpoint e) : Portrays es := by
  induction es with
  | nil => exact nil
  | cons e es ih =>
    obtain ⟨⟨flushpoint, _, startTime, duration, rfl, -, ⟨relations, hall, rfl⟩, kind, hroom⟩,
      hrest⟩ := List.forall_mem_cons.1 h
    have hfirst := Yields.of_describes
      (describes_piece (ho kind) startTime duration flushpoint hroom)
    exact (of_yields hfirst fun _ => .of_foreign_relations hall).append (ih hrest)

end Portrays

end Entry

/-! ## 2. What a recorder tells -/

/-- **Threads are described by the recorder alone**: all else is written as relations, and neither
in these nor in what is registered is any thread. -/
def Move.Foreign : Move → Prop
  | .append _ segment => ∃ relation : Relation, relation.Foreign ∧ segment = relation.encode
  | .registerStatic relation | .changeStatic _ relation => relation.Foreign
  | .registerConstant c => c.typeId ≠ ConstantType.thread
  | _ => True

/-- No thread was registered. -/
structure Setting.Foreign (s : Setting) : Prop where
  registered : ∀ relation ∈ s.registered, relation.Foreign
  typeSet : ∀ c ∈ s.typeSet, c.typeId ≠ ConstantType.thread

theorem Setting.shared (s : Setting) : StaticConstants.virtualGroup ∈ s.statics :=
  List.mem_append_left _ (by decide)

namespace Setting.Foreign

variable {s : Setting} {m : Move}

theorem after (h : s.Foreign) (hm : m.Foreign) : (s.after m).Foreign := by
  have hnone : ({ s with typeSet := [] } : Setting).Foreign :=
    ⟨h.registered, fun _ hc => (by cases hc)⟩
  cases m with
  | registerStatic relation =>
    exact ⟨List.forall_mem_append.2 ⟨h.registered, List.forall_mem_singleton.2 hm⟩, h.typeSet⟩
  | changeStatic place relation =>
    refine ⟨fun x hx => ?_, h.typeSet⟩
    rcases List.mem_or_eq_of_mem_set hx with hx | rfl
    · exact h.registered x hx
    · exact hm
  | registerConstant c =>
    exact ⟨h.registered, List.forall_mem_append.2 ⟨h.typeSet, List.forall_mem_singleton.2 hm⟩⟩
  | clearTypeSet | writeTypeSet => exact hnone
  | purgeUnloading =>
    exact ⟨h.registered, fun c hc => h.typeSet c (List.mem_filter.1 hc).1⟩
  | rotate =>
    show (if s.sink then { s with typeSet := [] } else s).Foreign
    split
    · exact hnone
    · exact h
  | changeHost | installSink | replaceSink => exact ⟨h.registered, h.typeSet⟩
  | _ => exact h

theorem statics (h : s.Foreign) : ∀ relation ∈ s.statics, relation.Foreign :=
  List.forall_mem_append.2 ⟨by decide, h.registered⟩

theorem relations_typeSet (h : s.Foreign) : ∀ relation ∈ s.typeSet.relations, relation.Foreign := by
  intro relation hr
  obtain ⟨typeId, htype, rfl⟩ := List.mem_map.1 hr
  obtain ⟨c, hc, rfl⟩ := List.mem_map.1 (mem_ascending.1 htype)
  exact h.typeSet c hc

/-- **What the recorder writes is grouped**, if it can be read. -/
theorem recited (h : s.Foreign) (m : Move)
    (hs : ∀ c ∈ (s.recited m).flatMap Relation.constants, c.Short) :
    Grouped ((s.recited m).flatMap Relation.constants) := by
  have hstatics := Grouped.of_foreign_relations h.statics
  have htypes := Grouped.of_foreign_relations h.relations_typeSet
  cases m with
  | writeStatics thread => exact hstatics
  | writeThreads thread => exact .table _ hs
  | writeStaticsAndThreads =>
    simp only [Setting.recited, List.flatMap_append] at hs ⊢
    exact hstatics.append (.table _ (List.forall_mem_append.1 hs).2)
  | writeTypeSet | flushTypeSet => exact htypes
  | writeCheckpoint thread id mounted => exact .checkpointRelations thread id mounted hs
  | writeSimplified id => exact .simplified id
  | rotate =>
    simp only [Setting.recited] at hs ⊢
    split
    · rename_i hsink
      simp only [if_pos hsink, Setting.rotation, List.flatMap_append, List.forall_mem_append]
        at hs ⊢
      exact hstatics.append ((Grouped.table _ hs.2.1).append htypes)
    · exact .of_foreign fun _ hc => by cases hc
  | _ => exact .of_foreign fun _ hc => by cases hc

end Setting.Foreign

/-! ## 3. Moves -/

def Fault.ofSink : Fault → Bool
  | .sink _ => true
  | _ => false

/-- **Nothing that the recorder tells is lost in the move.**  No call of a sink fails, and the
recorder drops no checkpoint of its own; a new sink is empty, or goes on with a chunk of the run. -/
structure Move.Undisturbed (m : Move) (run : Run) : Prop where
  admitted : m.admitted run
  accepted : (run.fault? m).all (fun fault => !fault.ofSink) = true
  sizes : ∀ relation ∈ run.recorder.setting.recited m,
    relation.encode.length ≤ Memory.addressable
  kept : m.byRecorder = true → (run.step m).recorder.stats.checkpointsDropped =
    run.recorder.stats.checkpointsDropped
  fresh : ∀ sink ∈ m.brings run,
    sink.content = [] ∨ ∃ old ∈ run.sinks, sink.content = old.content

instance (m : Move) (run : Run) : Decidable (m.Undisturbed run) :=
  decidable_of_iff (m.admitted run ∧ (run.fault? m).all (fun fault => !fault.ofSink) = true ∧
      (∀ relation ∈ run.recorder.setting.recited m,
        relation.encode.length ≤ Memory.addressable) ∧
      (m.byRecorder = true → (run.step m).recorder.stats.checkpointsDropped =
        run.recorder.stats.checkpointsDropped) ∧
      ∀ sink ∈ m.brings run, sink.content = [] ∨ ∃ old ∈ run.sinks, sink.content = old.content)
    ⟨fun ⟨ha, hs, hr, hk, hf⟩ => ⟨ha, hs, hr, hk, hf⟩,
      fun ⟨ha, hs, hr, hk, hf⟩ => ⟨ha, hs, hr, hk, hf⟩⟩

namespace Move.Undisturbed

variable {m : Move} {run : Run}

theorem delivers (h : m.Undisturbed run) (hc : m ≠ .clear) : m.delivers run = true := by
  have hsame : (fun fault : Fault => !fault.ofSink) = fun fault => match fault with
      | .sink _ => false
      | _ => true := by
    funext fault
    cases fault <;> rfl
  have haccepted := h.accepted
  rw [hsame] at haccepted
  cases m with
  | clear => exact absurd rfl hc
  | _ => exact haccepted

end Move.Undisturbed

namespace Run

variable {options : RecorderOptions} {run run' : Run} {m : Move}

/-- **What the recorder was told** after any such move. -/
theorem Sound.setting_step (h : run.Sound options) (ho : ∀ kind, options.Modest kind)
    (ha : run.recorder.aborted = false) (hm : m.Undisturbed run) :
    (run.step m).recorder.setting = run.recorder.setting.after m := by
  by_cases hc : m = .clear
  · subst hc
    exact view_perform (Recorder.keeps_clear.coarser fun _ => rfl)
  by_cases hby : m.byRecorder = true
  · exact (h.recounts ho ha hm.admitted (hm.delivers hc) hby hm.sizes).setting
  obtain ⟨hw, hafter⟩ : m.onlyWrites = true ∧ ∀ s : Setting, s.after m = s := by
    cases m with
    | start | append | finish | abandon => exact ⟨rfl, fun _ => rfl⟩
    | _ => exact absurd rfl hby
  have hwritten := run.writerless_step hw
  rw [hafter]
  exact (congrArg Recorder.setting hwritten :)

/-- **A drain sends nothing, or leaves no entry in any buffer.** -/
theorem Sound.sent_or_emptied (h : run.Sound options) (hm : m.admitted run) :
    (m.ledger run).accepted = [] ∨ (run.step m).entries = [] := by
  have hr := h.recorder
  have hdrain (hd : m.drains = true) {x : Action Nat} {first : Action Detached}
      (hact : run.act m = run.perform x) (hw : m.byRecorder = true)
      (hx : Ends x run.recorder fun _ r' =>
        run.recorder.sent first = [] ∨ ∀ b ∈ r'.pooled, b.isEmpty = true) :
      run.recorder.sent first = [] ∨ (run.step m).entries = [] := by
    refine Or.imp_right (entries_eq_nil ((writers_step hw).trans (h.writers_eq_nil (hm.1 hd)))) ?_
    unfold Run.step
    rw [hact]
    exact hx
  cases m with
  | write => exact hdrain rfl rfl rfl (hr.detachForWrite_collects h.barrier).leaves
  | flushTypeSet =>
    exact hdrain rfl rfl rfl
      (Recorder.flushTypeSet_eq ▸ (hr.detachForFlush_collects h.barrier).leaves)
  | rotate => exact hdrain rfl rfl rfl (hr.detachForRotation_collects h.barrier).leaves
  | _ => exact .inl rfl

/-- **Where nothing is lost entries are in buffers or were sent.** -/
theorem Sound.perm_step (h : run.Sound options) (hm : m.admitted run)
    (hd : m.delivers run = true) :
    ((run.step m).entries ++ Entry.split (m.ledger run).accepted).Perm
      (run.entries ++ (m.ledger run).published.entries) := by
  refine List.perm_iff_count.2 fun x => ?_
  have hx := (h.step m hm).2.entries x
  rw [discarded_step hd, h.unsent_step hm hd] at hx
  simpa only [List.count_append, List.count_nil, Nat.add_zero] using hx

/-- **After a discard no entry is in any buffer.** -/
theorem Sound.entries_clear (h : run.Sound options) (hm : Move.clear.admitted run) :
    (run.step .clear).entries = [] := by
  have hw := h.writers_eq_nil (hm.1 rfl)
  refine List.eq_nil_iff_forall_not_mem.2 fun x hx => ?_
  have hcount := (h.step .clear hm).2.entries x
  have hall : run.entries = run.recorder.pooled.flatMap Buffer.entries := by
    rw [entries, held_eq_nil hw, Recorder.entries, List.append_nil]
  have hpos := List.count_pos_iff.2 hx
  simp only [Move.ledger, hall, Entry.split_nil, Published.entries, List.count_nil,
    List.append_nil] at hcount
  omega

/-! ## 4. Runs -/

/-- **The recorder tells of threads as it should**: what is in buffers is grouped, open writers tell
of no thread, and no thread was registered. -/
structure Live (run : Run) : Prop where
  setting : run.recorder.setting.Foreign
  writers : ∀ w ∈ run.writers, w.Runs Relation.EncodesForeign run.recorder.epoch.current
  entries : Entry.Portrays run.entries

/-- A chunk of whole entries whose constants are grouped. -/
def PortraysIn (chunk : Bytes) : Prop := Entry.IsRow chunk ∧ Entry.Portrays (Entry.split chunk)

/-- **All chunks are grouped**, and so is what will go into them unless the recorder was aborted. -/
structure Portrays (run : Run) : Prop where
  chunks : ∀ sink ∈ run.sinks, PortraysIn sink.content
  live : run.recorder.aborted = false → run.Live

theorem portraysIn_nil : PortraysIn [] := ⟨Entry.isRow_nil, Entry.split_nil ▸ .nil⟩

theorem PortraysIn.append {a b : Bytes} (ha : PortraysIn a) (hb : PortraysIn b) :
    PortraysIn (a ++ b) :=
  ⟨ha.1.append hb.1, ha.1.split_append b ▸ ha.2.append hb.2⟩

/-- **What a move publishes is grouped.** -/
theorem Live.published (hl : run.Live) (h : run.Sound options) (ho : ∀ kind, options.Modest kind)
    (ha : run.recorder.aborted = false) (hm : m.Undisturbed run) :
    Entry.Portrays (m.ledger run).published.entries := by
  by_cases hc : m = .clear
  · subst hc
    exact .nil
  by_cases hby : m.byRecorder = true
  · have hrecites := (h.recounts ho ha hm.admitted (hm.delivers hc) hby hm.sizes).recites
    exact .of_yields (hrecites.yields (hm.kept hby)) (hl.setting.recited m)
  -- The last cases are what a writer cuts off, and its last entry.
  have hseals : (m.ledger run).published.Seals options Relation.EncodesForeign := by
    cases m with
    | append writer segment =>
      refine ⟨fun e he => ?_, fun e he => (by cases he)⟩
      cases hget : run.writers[writer]? with
      | none => simp [Move.ledger, hget] at he
      | some w =>
        exact h.options ▸ (hl.writers w (List.mem_of_getElem? hget)).cutOff (h.seen hget).1 segment
          run.recorder.clock e (by simpa [Move.ledger, hget] using he)
    | finish writer =>
      refine ⟨fun e he => (by cases he), fun e he => ?_⟩
      cases hget : run.writers[writer]? with
      | none => simp [Move.ledger, hget] at he
      | some w =>
        exact h.options ▸ (hl.writers w (List.mem_of_getElem? hget)).lastPiece (h.seen hget).1
          run.recorder.clock e (by simpa [Move.ledger, hget] using he)
    | start | abandon => exact .nothing
    | _ => exact absurd rfl hby
  exact .of_seals ho fun e he => hseals.of_mem he

/-- **What is in buffers stays grouped, and so is what a drain sends.** -/
theorem Live.entries_step (hl : run.Live) (h : run.Sound options)
    (hm : m.Undisturbed run) (hp : Entry.Portrays (m.ledger run).published.entries) :
    Entry.Portrays (run.step m).entries ∧
      Entry.Portrays (Entry.split (m.ledger run).accepted) := by
  by_cases hc : m = .clear
  · subst hc
    exact ⟨h.entries_clear hm.admitted ▸ .nil, Entry.split_nil ▸ .nil⟩
  have hall := (hl.entries.append hp).of_perm (h.perm_step hm.admitted (hm.delivers hc))
  rcases h.sent_or_emptied hm.admitted with hnone | hnone
  · rw [hnone, Entry.split_nil, List.append_nil] at hall
    exact ⟨hall, hnone ▸ Entry.split_nil ▸ .nil⟩
  · rw [hnone, List.nil_append] at hall
    exact ⟨hnone ▸ .nil, hall⟩

/-- **Such moves keep chunks and buffers grouped.** -/
theorem Portrays.step (hr : run.Portrays) (h : Reachable options run)
    (ho : ∀ kind, options.Modest kind) (hm : m.Undisturbed run) (hf : m.Foreign) :
    (run.step m).Portrays := by
  have hs := h.sound
  have hnew : ∀ sink ∈ m.brings run, PortraysIn sink.content := by
    intro sink hsink
    rcases hm.fresh sink hsink with hempty | ⟨old, hold, heq⟩
    · exact hempty ▸ portraysIn_nil
    · exact heq ▸ hr.chunks old hold
  cases ha : run.recorder.aborted with
  | true =>
    have hhalted := (h.stopped ha).halted_step hs hm.admitted
    refine ⟨fun sink hsink => ?_, fun ha' => ?_⟩
    · obtain ⟨sink', hsink', heq⟩ :=
        List.mem_map.1 (hhalted.contents ▸ List.mem_map_of_mem hsink)
      exact heq ▸ (List.mem_append.1 hsink').elim (hr.chunks sink') (hnew sink')
    · rw [hhalted.aborted] at ha'
      cases ha'
  | false =>
    have hl := hr.live ha
    obtain ⟨hentries, hsent⟩ := hl.entries_step hs hm (hl.published hs ho ha hm)
    refine ⟨?_, fun _ => ⟨?_, ?_, hentries⟩⟩
    · exact hs.contents_step hm.admitted portraysIn_nil hr.chunks hnew fun hchunk =>
        hchunk.append ⟨(hs.step m hm.admitted).2.row, hsent⟩
    · rw [hs.setting_step ho ha hm]
      exact hl.setting.after hf
    · refine hs.runs_step hm.admitted ⟨[], fun _ hr => (by cases hr), rfl⟩ ?_ hl.writers
      rintro writer segment rfl segments hp
      obtain ⟨relation, hforeign, rfl⟩ := hf
      exact hp.concat hforeign

/-- **A run goes on**, and nothing that its recorder tells of threads is lost. -/
inductive TellsOn (run : Run) : Run → Prop where
  | refl : TellsOn run run
  | step {next : Run} (c : TellsOn run next) (m : Move) (hm : m.Undisturbed next)
      (hf : m.Foreign) : TellsOn run (next.step m)

theorem TellsOn.portrays (c : run.TellsOn run') (h : Reachable options run)
    (ho : ∀ kind, options.Modest kind) (hr : run.Portrays) :
    Reachable options run' ∧ run'.Portrays := by
  induction c with
  | refl => exact ⟨h, hr⟩
  | step _ m hm hf ih =>
    obtain ⟨hreach, hportrays⟩ := ih
    exact ⟨hreach.step m hm.admitted, hportrays.step hreach ho hm hf⟩

theorem Portrays.create {host : Host} {r : Recorder} (h : Recorder.create options host = .ok r) :
    ({ recorder := r } : Run).Portrays := by
  obtain ⟨-, hpooled, hsink, -⟩ := Recorder.sound_create h
  have hsetting : ({ recorder := r } : Run).recorder.setting = { host := host } :=
    (Remembers.create h).setting
  refine ⟨fun sink hsinks => ?_, fun _ => ⟨?_, fun _ hw => (by cases hw), ?_⟩⟩
  · simp [sinks, hsink] at hsinks
  · rw [hsetting]
    exact ⟨fun _ hr => (by cases hr), fun _ hc => (by cases hc)⟩
  · rw [entries, Recorder.entries, hpooled]
    exact .nil

/-- The chunk stays a chunk, and gains what the sink accepts. -/
theorem sinks_grow_of_chunk {accepted : Bytes} (hf : run'.finished = run.finished)
    (hs : run'.recorder.sink.isSome = run.recorder.sink.isSome)
    (hc : run'.recorder.chunk = run.recorder.chunk ++ accepted) {i : Nat} {sink : Sink}
    (hsink : run.sinks[i]? = some sink) :
    ∃ sink', run'.sinks[i]? = some sink' ∧ sink.content <+: sink'.content := by
  rw [sinks, hf]
  rw [sinks, List.getElem?_append] at hsink
  rw [List.getElem?_append]
  split at hsink
  · rename_i hi
    exact ⟨sink, by rw [if_pos hi, hsink], List.prefix_rfl⟩
  · rename_i hi
    rw [if_neg hi]
    unfold Recorder.chunk at hc
    cases hold : run.recorder.sink with
    | none => simp [hold] at hsink
    | some s =>
      obtain ⟨s', hnew⟩ := Option.isSome_iff_exists.1 (hs.trans (congrArg Option.isSome hold))
      rw [hold, Option.toList_some] at hsink
      have hzero : i - run.finished.length = 0 := by
        simpa using (List.getElem?_eq_some_iff.1 hsink).1
      obtain rfl : s = sink := by simpa [hzero] using hsink
      refine ⟨s', by simp [hnew, hzero], accepted, ?_⟩
      simpa [hold, hnew] using hc.symm

/-- **Sinks stay at their places and only grow.** -/
theorem Sound.sinks_grow (h : run.Sound options) (ho : ∀ kind, options.Modest kind)
    (hstopped : run.recorder.aborted = true → run.Stopped) (hm : m.Undisturbed run) {i : Nat}
    {sink : Sink} (hsink : run.sinks[i]? = some sink) :
    ∃ sink', (run.step m).sinks[i]? = some sink' ∧ sink.content <+: sink'.content := by
  by_cases hd : m = .write ∨ m = .flushTypeSet ∨ m = .shift ∨ m = .rotate
  · cases ha : run.recorder.aborted with
    | true =>
      rw [(hstopped ha).step_refused hd]
      exact ⟨sink, hsink, List.prefix_rfl⟩
    | false =>
      have hsame : (run.recorder.setting.after m).sink = run.recorder.setting.sink := by
        rcases hd with rfl | rfl | rfl | rfl
        · rfl
        · rfl
        · rfl
        · show (if run.recorder.setting.sink then _ else _ : Setting).sink = _
          split <;> rfl
      have hsetting := congrArg Setting.sink (h.setting_step ho ha hm)
      obtain ⟨hfinished, hchunk⟩ := h.chunk_step hm.admitted fun sink => by
        rcases hd with rfl | rfl | rfl | rfl <;> exact ⟨nofun, nofun⟩
      exact sinks_grow_of_chunk hfinished (hsetting.trans hsame) hchunk hsink
  · have hat : ((run.step m).sinks.map Sink.content)[i]? = some sink.content := by
      rw [(kept_step run hd).2.2.2, List.map_append, List.getElem?_append_left, List.getElem?_map,
        hsink]
      · rfl
      · rw [List.length_map]
        exact (List.getElem?_eq_some_iff.1 hsink).1
    rw [List.getElem?_map, Option.map_eq_some_iff] at hat
    obtain ⟨sink', hsink', heq⟩ := hat
    exact ⟨sink', hsink', heq ▸ List.prefix_rfl⟩

theorem TellsOn.sinks_grow (c : run.TellsOn run') (h : Reachable options run)
    (ho : ∀ kind, options.Modest kind) {i : Nat} {sink : Sink} (hsink : run.sinks[i]? = some sink) :
    ∃ sink', run'.sinks[i]? = some sink' ∧ sink.content <+: sink'.content := by
  have hreach : Reachable options run' ∧
      ∃ sink', run'.sinks[i]? = some sink' ∧ sink.content <+: sink'.content := by
    induction c with
    | refl => exact ⟨h, sink, hsink, List.prefix_rfl⟩
    | step _ m hm _ ih =>
      obtain ⟨hreach, sink', hsink', hgrown⟩ := ih
      obtain ⟨sink'', hsink'', hgrown'⟩ :=
        hreach.sound.sinks_grow ho hreach.stopped hm hsink'
      exact ⟨hreach.step m hm.admitted, sink'', hsink'', hgrown.trans hgrown'⟩
  exact hreach.2

/-! ## 5. Rotations -/

/-- **A rotation that succeeds writes the shared group into the chunk.** -/
theorem Portrays.hasGroup_rotate (hr : run.Portrays) (h : run.Sound options)
    (ho : ∀ kind, options.Modest kind) (hm : Move.rotate.Undisturbed run)
    (hok : run.fault? .rotate = none) :
    HasGroup ((Entry.split (run.step .rotate).recorder.chunk).flatMap Entry.constantsOf)
      virtualGroupId := by
  have ha := live_of_drain (.inr (.inr rfl)) hok
  have hdelivers := hm.delivers nofun
  have hsome := equipped_of_rotate hok
  have hyields := (h.recounts ho ha hm.admitted hdelivers rfl hm.sizes).recites.yields
    (hm.kept rfl)
  -- The group is among the constants that the rotation publishes.
  have hpublished : HasGroup
      ((Move.rotate.ledger run).published.entries.flatMap Entry.constantsOf) virtualGroupId := by
    refine ⟨ThreadInfo.groupValue virtualGroupName, hyields.perm.mem_iff.2
      (List.mem_flatMap.2 ⟨StaticConstants.virtualGroup, ?_, ?_⟩)⟩
    · show _ ∈ if run.recorder.setting.sink then run.recorder.setting.rotation else []
      rw [if_pos hsome]
      exact List.mem_append_left _ run.recorder.setting.shared
    · exact List.mem_singleton.2 rfl
  -- All that is published is sent, since nothing is left in any buffer.
  obtain ⟨-, hempty⟩ := h.emptied ho (.inr (.inr rfl)) hm.admitted hm.sizes hok
  have hperm := h.perm_step hm.admitted hdelivers
  rw [hempty, List.nil_append] at hperm
  obtain ⟨-, hchunk⟩ := ((forall_contents_iff portraysIn_nil).1 hr.chunks)
  rw [(h.chunk_step hm.admitted fun _ => ⟨nofun, nofun⟩).2, hchunk.1.split_append,
    List.flatMap_append]
  refine (hpublished.mono fun c hc => (hperm.flatMap_right _).mem_iff.2 ?_).mono
    (List.subset_append_right ..)
  rw [List.flatMap_append]
  exact List.mem_append_right _ hc

theorem PortraysIn.describesThreads {chunk chunk' : Bytes} (h : PortraysIn chunk)
    (h' : PortraysIn chunk') (hgrown : chunk <+: chunk')
    (hg : HasGroup ((Entry.split chunk).flatMap Entry.constantsOf) virtualGroupId) :
    DescribesThreads chunk' := by
  refine h'.2.grouped.describesThreads h'.1 h'.2.readable (hg.mono ?_)
  obtain ⟨rest, rfl⟩ := hgrown
  rw [h.1.split_append, List.flatMap_append]
  exact List.subset_append_left ..

/-- **Rotated chunks are self-describing.**  Let threads be described by the recorder alone, and let
nothing be lost that it tells of them.  Then a chunk that had a successful rotation goes on as the
chunk of one sink at its place, whatever else is done with the recorder; and at any time each sink
that has these bytes, and perhaps more behind them, has a table of constants in which all threads
can be read and every group of a thread has its constant, the group that virtual threads share
included. -/
theorem TellsOn.self_describing {host : Host} {r : Recorder}
    (hcreate : Recorder.create options host = .ok r) (ho : ∀ kind, options.Modest kind)
    (c : ({ recorder := r } : Run).TellsOn run) (hm : Move.rotate.Undisturbed run)
    (hok : run.fault? .rotate = none) (c' : (run.step .rotate).TellsOn run') :
    (∃ sink, run'.sinks[run.finished.length]? = some sink ∧
      (run.step .rotate).recorder.chunk <+: sink.content) ∧
    ∀ sink ∈ run'.sinks, (run.step .rotate).recorder.chunk <+: sink.content →
      DescribesThreads sink.content := by
  obtain ⟨h, hr⟩ := c.portrays (.create hcreate) ho (.create hcreate)
  have h₁ := h.step .rotate hm.admitted
  have hr₁ := hr.step h ho hm trivial
  obtain ⟨-, hchunk⟩ := (forall_contents_iff portraysIn_nil).1 hr₁.chunks
  obtain ⟨-, hr'⟩ := c'.portrays h₁ ho hr₁
  refine ⟨?_, fun sink hsink hgrown => hchunk.describesThreads (hr'.chunks sink hsink) hgrown
    (hr.hasGroup_rotate h.sound ho hm hok)⟩
  have hsetting := congrArg Setting.sink (h.sound.setting_step ho
    (live_of_drain (.inr (.inr rfl)) hok) hm)
  have hsome : (run.step .rotate).recorder.sink.isSome = true := by
    refine hsetting.trans ?_
    show (if run.recorder.setting.sink then _ else _ : Setting).sink = _
    rw [if_pos (equipped_of_rotate hok)]
    exact equipped_of_rotate hok
  obtain ⟨sink, hsink⟩ := Option.isSome_iff_exists.1 hsome
  have hat : (run.step .rotate).sinks[run.finished.length]? = some sink := by
    rw [sinks, finished_step (m := .rotate) (by simp), hsink]
    simp
  obtain ⟨sink', hsink', hgrown⟩ := c'.sinks_grow h₁ ho hat
  have hcontent : (run.step .rotate).recorder.chunk = sink.content := by
    simp [Recorder.chunk, hsink]
  exact ⟨sink', hsink', hcontent ▸ hgrown⟩

theorem TellsOn.walk (c : run.TellsOn run') (moves : List Move)
    (hm : ∀ x ∈ run'.trail moves, x.2.Undisturbed x.1) (hf : ∀ m ∈ moves, m.Foreign) :
    run.TellsOn (run'.walk moves) := by
  induction moves generalizing run' with
  | nil => exact c
  | cons m rest ih =>
    obtain ⟨hm, hrest⟩ := List.forall_mem_cons.1 hm
    obtain ⟨hf, hfrest⟩ := List.forall_mem_cons.1 hf
    exact ih (c.step m hm hf) hrest hfrest

/-- A thread is alive, a virtual thread is described by its id and another thread in two pieces, and
a writer tells of something else.  After the rotation the thread ends, a second chunk begins, and
what is told then is discarded. -/
theorem TellsOn.self_describing_two_chunks :
    let before : List Move := [.changeHost (·.attach (.carrier 3 "a" 9 "g")), .installSink {},
      .writeSimplified 9, .writeCheckpoint (.carrier 4 "b" 8 "h") none none,
      .start 3 .threadLocal, .append 0 (Relation.encode ⟨5, [(1, [1, 2, 3])]⟩), .finish 0]
    let after : List Move := [.changeHost (·.detach 3), .writeSimplified 10, .write,
      .replaceSink {}, .writeSimplified 11, .clear]
    let run := (roomy.walk before).step .rotate
    run.recorder.stats.flushes = 1 ∧ (run.walk after).sinks.length = 2 ∧
      ∃ sink, (run.walk after).sinks[0]? = some sink ∧ DescribesThreads sink.content := by
  intro before after run
  have hfacts : (∀ x ∈ roomy.trail before, x.2.Undisturbed x.1) ∧
      Move.rotate.Undisturbed (roomy.walk before) ∧ (roomy.walk before).fault? .rotate = none ∧
      (∀ x ∈ run.trail after, x.2.Undisturbed x.1) ∧
      (∀ kind ∈ BufferKind.all, roomyOptions.Modest kind) ∧
      (roomy.walk before).finished.length = 0 ∧
      run.recorder.stats.flushes = 1 ∧ (run.walk after).sinks.length = 2 := by
    decide +kernel
  obtain ⟨hbefore, hrotate, hok, hafter, ho, hfirst, hflushes, hsinks⟩ := hfacts
  have hforeign : ∀ m ∈ before, m.Foreign := by
    simpa [before, Move.Foreign] using ⟨⟨5, [(1, [1, 2, 3])]⟩, by decide, rfl⟩
  have c : ({ recorder := roomy.recorder } : Run).TellsOn (roomy.walk before) :=
    TellsOn.refl.walk before hbefore hforeign
  obtain ⟨⟨sink, hat, hgrown⟩, hall⟩ := TellsOn.self_describing create_roomy
    (fun kind => ho kind (by cases kind <;> decide)) c hrotate hok
    (TellsOn.refl.walk after hafter (by simp [after, Move.Foreign]))
  rw [hfirst] at hat
  exact ⟨hflushes, hsinks, sink, hat, hall sink (List.mem_of_getElem? hat) hgrown⟩

end Run

end TraceRecorder
