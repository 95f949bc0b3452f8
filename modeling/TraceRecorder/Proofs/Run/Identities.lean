/-
# Thread identities survive

A thread is described in two ways: in an entry outside any chunk, and in a checkpoint that waits in
the pools until a drain sends it.  Either way the same two constants are read back
(`ThreadInfo.Describable.survives`).

The checkpoint is cut into one or two pieces, by the room that there is, and other entries may stand
before, between and behind them.  So of the chunk it is said which constants it yields, among others
(`Run.Recalls`); where nothing else was recorded they are all that it has, and the thread is
identified as it is by its own entry.  Of the options nothing is asked.

* `Sound.checkpoint_tells`: a checkpoint that is not dropped tells both constants;
* `Reachable.entries_walk`: its entries wait as long as nothing is drained;
* `Sound.drained`: and none waits after a drain that succeeds.
-/
import TraceRecorder.Proofs.Recorder.Partition
import TraceRecorder.Proofs.Run.Dropping
import TraceRecorder.Proofs.Run.Threads

namespace TraceRecorder

open Fallible (Ends)

namespace Run

variable {options : RecorderOptions} {run : Run} {m : Move} {thread : ThreadInfo}
  {id : Option ThreadId} {mounted : Option ThreadInfo}

/-! ## 1. Into the pools -/

theorem exists_checkpoint_kind (thread : ThreadInfo) (id : Option ThreadId)
    (mounted : Option ThreadInfo) : ∃ kind,
      Recorder.writeCheckpoint thread id mounted =
        Recorder.writeRelations (thread.described mounted).id kind false
          (thread.checkpointRelations id mounted) ∧
      ∀ r : Recorder, r.checkpointEntries thread id mounted =
        r.relationEntries (thread.described mounted).id kind false
          (thread.checkpointRelations id mounted) := by
  cases mounted with
  | none => exact ⟨.threadLocal, rfl, fun _ => rfl⟩
  | some v => exact ⟨.virtualThreadLocal, rfl, fun _ => rfl⟩

/-- A checkpoint that is not dropped is written. -/
theorem Sound.checkpoint_written (h : run.Sound options) (ha : run.recorder.aborted = false)
    (hd : thread.Describable mounted) (hm : (Move.writeCheckpoint thread id mounted).admitted run)
    (hkept : (run.step (.writeCheckpoint thread id mounted)).recorder.stats.checkpointsDropped =
      run.recorder.stats.checkpointsDropped) :
    (run.step (.writeCheckpoint thread id mounted)).recorder.stats.checkpointsWritten =
      run.recorder.stats.checkpointsWritten + 1 := by
  obtain ⟨kind, hwrite, -⟩ := exists_checkpoint_kind thread id mounted
  have hsome : ∃ relation ∈ thread.checkpointRelations id mounted, relation.isEmpty = false := by
    have hne : thread.checkpointRelations id mounted ≠ [] :=
      List.ne_nil_of_length_eq_add_one (thread.length_checkpointRelations id mounted)
    obtain ⟨relation, hr⟩ := List.exists_mem_of_ne_nil _ hne
    exact ⟨relation, hr, ThreadInfo.isEmpty_checkpointRelations hr⟩
  have hsizes : ∀ relation ∈ thread.checkpointRelations id mounted,
      relation.encode.length ≤ Memory.addressable := fun relation hr =>
    Nat.le_trans (Nat.le_of_lt (hd.length_encode_lt relation hr)) (by decide)
  have hfew : (thread.checkpointRelations id mounted).length < UInt32.size := by
    rw [thread.length_checkpointRelations id mounted]
    decide
  have hcounts := h.recorder.writeRelations_counts ha (thread.described mounted).id kind false rfl
    hsizes (.inr hfew) hsome
  have hgranted := hm.2
  simp only [Move.granted, Run.fault?, Run.act, Run.perform, hwrite] at hgranted
  simp only [Run.step, Run.act, Run.perform, hwrite] at hkept ⊢
  rcases hrun : Fallible.runOn (Recorder.writeRelations (thread.described mounted).id kind false
    (thread.checkpointRelations id mounted)) run.recorder with ⟨answer, r'⟩
  rw [hrun] at hkept hgranted
  obtain ⟨-, hcounted⟩ := (hcounts.run_eq hrun).resolve_left (not_refused hgranted)
  rcases hcounted with hcounted | hcounted
  · exact hcounted.written
  · have hdropped := hcounted.dropped
    dsimp only at hkept
    omega

/-- **A checkpoint that is not dropped tells who the thread is.** -/
theorem Sound.checkpoint_tells (h : run.Sound options) (ha : run.recorder.aborted = false)
    (hd : thread.Describable mounted) (hm : (Move.writeCheckpoint thread id mounted).admitted run)
    (hkept : (run.step (.writeCheckpoint thread id mounted)).recorder.stats.checkpointsDropped =
      run.recorder.stats.checkpointsDropped) :
    Entry.Tell run.recorder.clock
      ((Move.writeCheckpoint thread id mounted).ledger run).published.entries
      (thread.checkpointRelations id mounted) := by
  obtain ⟨kind, -, hentries⟩ := exists_checkpoint_kind thread id mounted
  -- One checkpoint more is written, so there is a last entry.
  have hwritten := h.checkpoint_written ha hd hm hkept
  have hcount := (h.step _ hm).2.last
  simp only [Move.ledger, hentries] at hcount ⊢
  have hlast : (Recorder.relationEntries (thread.described mounted).id kind false
      (thread.checkpointRelations id mounted) run.recorder).last ≠ [] := by
    intro hnone
    rw [hnone] at hcount
    dsimp only [List.length_nil] at hcount
    omega
  have htell := h.recorder.relationEntries_tell _ kind false rfl hlast
  rwa [List.filter_eq_self.2 fun relation hr => by
    rw [ThreadInfo.isEmpty_checkpointRelations hr]; rfl] at htell

/-- **A recorder that goes on was never aborted.** -/
theorem Reachable.live_of_walk (h : Reachable options run) {moves : List Move}
    (hm : run.Admits moves) (ha : (run.walk moves).recorder.aborted = false) :
    run.recorder.aborted = false := by
  induction moves generalizing run with
  | nil => exact ha
  | cons m rest ih =>
    have hnext := ih (h.step m hm.1) hm.2 ha
    refine Bool.eq_false_iff.2 fun haborted => ?_
    rw [h.sound.aborted_step m haborted] at hnext
    cases hnext

def publishing (run : Run) (moves : List Move) : List Bytes :=
  (run.trail moves).flatMap fun x => (x.2.ledger x.1).published.entries

theorem publishing_concat (run : Run) (moves : List Move) (m : Move) :
    run.publishing (moves ++ [m]) =
      run.publishing moves ++ (m.ledger (run.walk moves)).published.entries := by
  induction moves generalizing run with
  | nil => exact List.append_nil _
  | cons m' rest ih =>
    have hrest := ih (run.step m')
    simp only [publishing, List.cons_append, trail, List.flatMap_cons, List.append_assoc]
      at hrest ⊢
    rw [hrest]
    rfl

theorem Sound.perm_entries_step (h : run.Sound options) (hm : m.admitted run)
    (hd : m.drains = false) :
    (run.step m).entries.Perm (run.entries ++ (m.ledger run).published.entries) :=
  List.perm_iff_count.2 fun x => by rw [h.count_entries_step hm hd, List.count_append]

/-- **Without a drain all entries wait**, and those that are published join them. -/
theorem Reachable.entries_walk (h : Reachable options run) {moves : List Move}
    (hm : run.Admits moves) (hd : ∀ m ∈ moves, m.drains = false) :
    (run.walk moves).entries.Perm (run.entries ++ run.publishing moves) := by
  induction moves generalizing run with
  | nil => exact .of_eq (List.append_nil _).symm
  | cons m rest ih =>
    obtain ⟨hquiet, hrest⟩ := List.forall_mem_cons.1 hd
    have hfirst := h.sound.perm_entries_step hm.1 hquiet
    have hlater := (ih (h.step m hm.1) hm.2 hrest).trans (hfirst.append_right _)
    rwa [List.append_assoc] at hlater

/-! ## 2. Into the chunk -/

/-- **A drain that succeeds leaves no entry in any buffer.** -/
theorem Sound.drained (h : run.Sound options)
    (hm : m = .write ∨ m = .flushTypeSet ∨ m = .rotate) (hf : m.admitted run)
    (hok : run.fault? m = none) : (run.step m).entries = [] := by
  have hr := h.recorder
  have hdrain {x : Action Nat} {first : Action Detached} (hact : run.act m = run.perform x)
      (hw : m.byRecorder = true) (hd : m.drains = true)
      (hx : Ends x run.recorder fun answer r' =>
        ((∃ fault, answer = .error fault) ∧ run.recorder.sent first = []) ∨
          ∀ b ∈ r'.pooled, b.isEmpty = true) : (run.step m).entries = [] := by
    refine entries_eq_nil ((writers_step hw).trans (h.writers_eq_nil (hf.1 hd))) ?_
    simp only [Run.fault?, Run.step, hact, Run.perform] at hok ⊢
    rcases hrun : Fallible.runOn x run.recorder with ⟨answer, r'⟩
    rw [hrun] at hok
    refine (hx.run_eq hrun).resolve_left ?_
    rintro ⟨⟨fault, rfl⟩, -⟩
    cases hok
  rcases hm with rfl | rfl | rfl
  · exact hdrain rfl rfl rfl (hr.detachForWrite_collects h.barrier).fails_or_empties
  · exact hdrain rfl rfl rfl
      (Recorder.flushTypeSet_eq ▸ (hr.detachForFlush_collects h.barrier).fails_or_empties)
  · exact hdrain rfl rfl rfl (hr.detachForRotation_collects h.barrier).fails_or_empties

/-- **A drain that succeeds appends all entries to the chunk**, those that waited and those that it
publishes itself. -/
theorem Sound.drain_gains (h : run.Sound options)
    (hm : m = .write ∨ m = .flushTypeSet ∨ m = .rotate) (hf : m.admitted run)
    (hok : run.fault? m = none) :
    ∃ gained, (run.step m).recorder.chunk = run.recorder.chunk ++ gained ∧ Entry.IsRow gained ∧
      (Entry.split gained).Perm (run.entries ++ (m.ledger run).published.entries) := by
  have hdelivers : m.delivers run = true := by
    rcases hm with rfl | rfl | rfl <;> simp [Move.delivers, hok]
  have hchunk := (h.chunk_step hf fun sink => by rcases hm with rfl | rfl | rfl <;> simp).2
  have hperm := h.perm_step hf hdelivers
  rw [h.drained hm hf hok, List.nil_append] at hperm
  exact ⟨_, hchunk, (h.step m hf).2.row, hperm⟩

/-! ## 3. Out of the chunk -/

/-- **What a reader finds of a thread** in a chunk to which its checkpoint and other entries were
appended. -/
structure Recalls (thread : ThreadInfo) (id : Option ThreadId) (mounted : Option ThreadInfo)
    (before : Bytes) (others : List Bytes) (after : Bytes) : Prop where
  /-- The two constants are read with those of the other entries, and in the table they have their
  values, unless another entry gives one of them another value. -/
  found : Entry.Legible before → (∀ e ∈ others, Entry.Legible e) →
    ∃ cs t, Entry.walk after = .ok (Entry.constantsOf before ++ cs) ∧
      cs.Perm (others.flatMap Entry.constantsOf ++ thread.identity id mounted) ∧
      ConstantTable.ofChunk after = .ok t ∧
      ((∀ c ∈ thread.identity id mounted, ∀ c' ∈ others.flatMap Entry.constantsOf,
          c'.id = c.id → c' = c) →
        t.TellsOf (thread.record id mounted) (thread.described mounted).groupName)
  /-- Where nothing else was recorded, the chunk has nothing else. -/
  alone : before = [] → others = [] → thread.IdentifiedBy id mounted after

/-- **Entries that tell who the thread is are found** wherever they stand among the others. -/
theorem recalls_of_split (hd : thread.Describable mounted) {before gained : Bytes}
    {others es : List Bytes} {startTime : UInt64} (hes : thread.ToldBy id mounted startTime es)
    (hrow : Entry.IsRow gained) (hsplit : (Entry.split gained).Perm (others ++ es)) :
    Recalls thread id mounted before others (before ++ gained) := by
  have hwalk : (∀ e ∈ others, Entry.Legible e) → ∃ cs, Entry.walk gained = .ok cs ∧
      cs.Perm (others.flatMap Entry.constantsOf ++ thread.identity id mounted) := by
    intro hothers
    refine ⟨(Entry.split gained).flatMap Entry.constantsOf, ?_, ?_⟩
    · have hall : ∀ e ∈ Entry.split gained, Entry.Legible e := fun e he =>
        (List.mem_append.1 (hsplit.mem_iff.1 he)).elim (hothers e) (hes.legible e)
      have hgained := Entry.walk_of_legible hall
      rwa [hrow] at hgained
    · rw [← hes.constants, ← List.flatMap_append]
      exact hsplit.flatMap_right _
  constructor
  · intro hbefore hothers
    obtain ⟨cs, hgained, hcs⟩ := hwalk hothers
    have hafter := Entry.walk_append hbefore hgained
    refine ⟨cs, _, hafter, hcs, ConstantTable.ofChunk_eq_ok_iff.2
      ⟨(Entry.walk_eq_ok_iff.1 hafter).1, rfl⟩, fun hagree => hd.tellsOf fun c hc => ?_⟩
    rw [← (Entry.walk_eq_ok_iff.1 hafter).2, ConstantTable.valueOf?_withAll_append]
    -- All that the drain brings of this constant is its value, whichever entry comes last.
    rw [ConstantTable.valueOf?_withAll_of_agree
      (hcs.mem_iff.2 (List.mem_append_right _ hc)) fun c' hc' heq => ?_, Option.some_or]
    rcases List.mem_append.1 (hcs.mem_iff.1 hc') with hc' | hc'
    · exact hagree c hc c' hc' heq
    · exact List.inj_on_of_nodup_map (ThreadInfo.nodup_identity thread id mounted) hc' hc heq
  · rintro rfl rfl
    obtain ⟨cs, hgained, hcs⟩ := hwalk nofun
    exact hd.identifiedBy hgained hcs

/-- **A checkpoint of the thread is written and not dropped**, other moves are made, and a drain
succeeds. -/
structure Sends (run : Run) (thread : ThreadInfo) (id : Option ThreadId)
    (mounted : Option ThreadInfo) (moves : List Move) (drain : Move) : Prop where
  written : (Move.writeCheckpoint thread id mounted).admitted run
  kept : (run.step (.writeCheckpoint thread id mounted)).recorder.stats.checkpointsDropped =
    run.recorder.stats.checkpointsDropped
  admits : (run.step (.writeCheckpoint thread id mounted)).Admits moves
  between : ∀ m ∈ moves, m.drains = false
  sending : drain = .write ∨ drain = .flushTypeSet ∨ drain = .rotate
  admitted : drain.admitted ((run.step (.writeCheckpoint thread id mounted)).walk moves)
  succeeds : ((run.step (.writeCheckpoint thread id mounted)).walk moves).fault? drain = none

/-- **What is appended to the chunk** has the entries that tell of the thread, and all others. -/
theorem Sends.gains {moves : List Move} {drain : Move}
    (hs : run.Sends thread id mounted moves drain) (h : Reachable options run)
    (hd : thread.Describable mounted) :
    let first := run.step (.writeCheckpoint thread id mounted)
    let later := first.walk moves
    ∃ es gained, thread.ToldBy id mounted run.recorder.clock es ∧
      (later.step drain).recorder.chunk = later.recorder.chunk ++ gained ∧
      Entry.IsRow gained ∧
      (Entry.split gained).Perm (run.entries ++ first.publishing (moves ++ [drain]) ++ es) := by
  intro first later
  have hfirst : Reachable options first := h.step _ hs.written
  have hlater : Reachable options later := hfirst.walk moves hs.admits
  have hall : run.Admits (.writeCheckpoint thread id mounted :: moves) := ⟨hs.written, hs.admits⟩
  have ha := h.live_of_walk hall (live_of_drain hs.sending hs.succeeds)
  have hes := hd.toldBy (h.sound.checkpoint_tells ha hd hs.written hs.kept)
  obtain ⟨gained, hchunk, hrow, hsplit⟩ :=
    hlater.sound.drain_gains hs.sending hs.admitted hs.succeeds
  refine ⟨_, gained, hes, hchunk, hrow, hsplit.trans ?_⟩
  have hwait := (hfirst.entries_walk hs.admits hs.between).trans
    ((h.sound.perm_entries_step hs.written rfl).append_right _)
  refine (hwait.append_right _).trans ?_
  -- The checkpoint's own entries come behind all others.
  rw [publishing_concat]
  simp only [List.append_assoc]
  refine List.Perm.append_left _ (List.perm_append_comm.trans ?_)
  rw [List.append_assoc]

end Run

/-- **Thread identities survive.**  The entry that describes a thread outside any chunk stands
alone: it has two constants, and what is read of them is the described thread, under the id that is
asked for, with its group and its carrier.

A checkpoint with the same arguments that is not dropped tells the same two constants.  Whatever
goes on meanwhile, the next drain that succeeds appends its entries to the chunk, beside those that
waited before and those that are published until then, and what is read of the chunk is as
`Recalls` says. -/
theorem ThreadInfo.Describable.survives {thread : ThreadInfo} {mounted : Option ThreadInfo}
    (h : thread.Describable mounted) (id : Option ThreadId) :
    (∀ startTime duration,
      thread.StandsAlone id mounted (thread.standaloneEntry id mounted startTime duration)) ∧
    ∀ options run moves drain, Run.Reachable options run →
      run.Sends thread id mounted moves drain →
      let first := run.step (.writeCheckpoint thread id mounted)
      let later := first.walk moves
      let others := run.entries ++ first.publishing (moves ++ [drain])
      ∃ es gained, thread.ToldBy id mounted run.recorder.clock es ∧
        (later.step drain).recorder.chunk = later.recorder.chunk ++ gained ∧
        Entry.IsRow gained ∧ (Entry.split gained).Perm (others ++ es) ∧
        Run.Recalls thread id mounted later.recorder.chunk others
          (later.step drain).recorder.chunk := by
  refine ⟨fun startTime duration => h.standalone startTime duration, ?_⟩
  intro options run moves drain hreach hsends
  obtain ⟨es, gained, hes, hchunk, hrow, hsplit⟩ := hsends.gains hreach h
  exact ⟨es, gained, hes, hchunk, hrow, hsplit,
    hchunk ▸ Run.recalls_of_split h hes hrow hsplit⟩

/-- A virtual thread is described in two pieces, by its id and the carrier it is mounted on, and the
recorder's clock goes on before the drain. -/
theorem ThreadInfo.Describable.survives_in_two_pieces :
    let thread : ThreadInfo := .carrier 4 "b" 8 "h"
    let mounted : Option ThreadInfo := some (.virtualThread 9 "v")
    let run := Run.small.step (.installSink {})
    let later := (run.step (.writeCheckpoint thread none mounted)).walk [.setClock 5]
    thread.Describable mounted ∧ thread.record none mounted = ⟨9, 0, "v", 1, true, some 4⟩ ∧
      (later.step .write).recorder.stats.flushes = 1 ∧
      thread.IdentifiedBy none mounted (thread.standaloneEntry none mounted 0 0) ∧
      thread.IdentifiedBy none mounted (later.step .write).recorder.chunk := by
  intro thread mounted run later
  have hfacts : thread.Describable mounted ∧
      thread.record none mounted = ⟨9, 0, "v", 1, true, some 4⟩ ∧
      (later.step .write).recorder.stats.flushes = 1 ∧
      (Move.installSink {}).admitted Run.small ∧ later.recorder.chunk = [] ∧
      run.entries ++ (run.step (.writeCheckpoint thread none mounted)).publishing
        ([.setClock 5] ++ [.write]) = [] := by
    decide +kernel
  have hsends : run.Sends thread none mounted [.setClock 5] .write := by
    have hall : (Move.writeCheckpoint thread none mounted).admitted run ∧
        (run.step (.writeCheckpoint thread none mounted)).recorder.stats.checkpointsDropped =
          run.recorder.stats.checkpointsDropped ∧
        (run.step (.writeCheckpoint thread none mounted)).Admits [.setClock 5] ∧
        Move.write.admitted later ∧ later.fault? .write = none := by
      decide +kernel
    obtain ⟨hwritten, hkept, hadmits, hadmitted, hsucceeds⟩ := hall
    exact ⟨hwritten, hkept, hadmits, by simp [Move.drains], .inl rfl, hadmitted, hsucceeds⟩
  obtain ⟨hd, hrecord, hflushes, hinstall, hbefore, hothers⟩ := hfacts
  have hreach : Run.Reachable Run.smallOptions run :=
    (Run.Reachable.create Run.create_small).step _ hinstall
  obtain ⟨halone, hsent⟩ := ThreadInfo.Describable.survives hd none
  obtain ⟨es, gained, -, -, -, -, hrecalls⟩ := hsent _ run _ _ hreach hsends
  exact ⟨hd, hrecord, hflushes, (halone 0 0).identified, hrecalls.alone hbefore hothers⟩

end TraceRecorder
