/-
# What is told is read back

A `Recording` is a run of which nothing is lost: no checkpoint is dropped or abandoned, nothing is
discarded, no sink refuses a call, and writers are given relations.  At any time, unless the
recorder was aborted, what it was told is in three places (`Remembers`): as entries in buffers, as
entries in sinks, and as relations that open writers have not yet committed (`Draft`).

A drain that succeeds leaves nothing in buffers.  So after it the sinks together are read back as
the constants of all relations that finished writers were given and the recorder wrote itself
(`Drained.read_back`).  Of the options nothing matters but that sizes are 32-bit words.
-/
import Mathlib.Data.List.Forall2
import TraceRecorder.Proofs.Run.Intake
import TraceRecorder.Proofs.Run.Quiet

namespace TraceRecorder

open Fallible (Ends)

/-! ## 1. Sinks -/

namespace Entry

/-- **Rows one behind the other are a row**, and its entries are theirs. -/
theorem split_flatMap {α : Type} {f : α → Bytes} {xs : List α} (h : ∀ x ∈ xs, IsRow (f x)) :
    IsRow (xs.flatMap f) ∧ split (xs.flatMap f) = xs.flatMap fun x => split (f x) := by
  induction xs with
  | nil => exact ⟨isRow_nil, split_nil⟩
  | cons x xs ih =>
    obtain ⟨hrow, hsplit⟩ := ih fun y hy => h y (List.mem_cons_of_mem _ hy)
    have hx := h x List.mem_cons_self
    rw [List.flatMap_cons, List.flatMap_cons, hx.split_append, hsplit]
    exact ⟨hx.append hrow, rfl⟩

end Entry

theorem Move.content_of_brings {m : Move} {run : Run} (hb : (m.ledger run).brought = [])
    {sink : Sink} (hsink : sink ∈ m.brings run) : sink.content = [] := by
  cases m with
  | installSink | replaceSink =>
    simp only [Move.brings, Move.ledger] at hb hsink
    split at hsink
    · rename_i hfault
      rw [if_pos hfault] at hb
      rwa [List.mem_singleton.1 hsink]
    · cases hsink
  | _ => cases hsink

namespace Run

variable {options : RecorderOptions} {run run' : Run} {m : Move} {l : Ledger}

/-- **All entries that were committed**, in buffers and in sinks. -/
def committed (run : Run) : List Bytes := run.entries ++ Entry.split run.recorded

/-- Each sink has a row of whole entries. -/
def Rowed (run : Run) : Prop := ∀ sink ∈ run.sinks, Entry.IsRow sink.content

/-- **Where nothing is lost, committed entries stay** and those that are published come. -/
theorem Settles.committed (h : Settles run run' l) (hr : run.Rowed) (hd : l.discarded = [])
    (hu : l.unsent = []) (hb : l.brought = []) :
    run'.committed.Perm (run.committed ++ l.published.entries) := by
  rw [List.perm_iff_count]
  intro x
  have hx := h.entries x
  rw [hd, hu] at hx
  have hrow : Entry.IsRow run.recorded := (Entry.split_flatMap hr).1
  rw [Run.committed, Run.committed, h.recorded hb, hrow.split_append]
  simp only [List.count_append, List.count_nil] at hx ⊢
  omega

theorem forall_contents_iff {Q : Bytes → Prop} (hnone : Q []) :
    (∀ sink ∈ run.sinks, Q sink.content) ↔
      (∀ sink ∈ run.finished, Q sink.content) ∧ Q run.recorder.chunk := by
  rw [sinks, Recorder.chunk]
  cases run.recorder.sink with
  | none => simp [hnone]
  | some sink => simp [or_imp, forall_and]

/-- **Where no sink is brought the chunk gains what the sink accepts**, and no chunk is finished. -/
theorem Sound.chunk_step (h : run.Sound options) (hm : m.admitted run)
    (hno : ∀ sink, m ≠ .installSink sink ∧ m ≠ .replaceSink sink) :
    (run.step m).finished = run.finished ∧
      (run.step m).recorder.chunk = run.recorder.chunk ++ (m.ledger run).accepted := by
  have hbrought : (m.ledger run).brought = [] := by
    cases m with
    | installSink sink => exact absurd rfl (hno sink).1
    | replaceSink sink => exact absurd rfl (hno sink).2
    | _ => rfl
  have hsame : (run.step m).finished = run.finished := finished_step fun sink => (hno sink).2
  have hrecorded := (h.step m hm).2.recorded hbrought
  rw [recorded_eq, recorded_eq, hsame, List.append_assoc, List.append_cancel_left_eq] at hrecorded
  exact ⟨hsame, hrecorded⟩

/-- **What holds of the bytes of all sinks goes on to hold**, if it holds of those that a new sink
brings and of what the chunk grows to. -/
theorem Sound.contents_step {Q : Bytes → Prop} (h : run.Sound options) (hm : m.admitted run)
    (hnone : Q []) (hq : ∀ sink ∈ run.sinks, Q sink.content)
    (hnew : ∀ sink ∈ m.brings run, Q sink.content)
    (hgrow : Q run.recorder.chunk → Q (run.recorder.chunk ++ (m.ledger run).accepted)) :
    ∀ sink ∈ (run.step m).sinks, Q sink.content := by
  have hbehind (hcontents : (run.step m).sinks.map Sink.content =
      (run.sinks ++ m.brings run).map Sink.content) :
      ∀ sink ∈ (run.step m).sinks, Q sink.content := by
    intro sink hsink
    obtain ⟨sink', hsink', heq⟩ := List.mem_map.1 (hcontents ▸ List.mem_map_of_mem hsink)
    exact heq ▸ (List.mem_append.1 hsink').elim (hq sink') (hnew sink')
  by_cases hbrings : ∃ sink, m = .installSink sink ∨ m = .replaceSink sink
  · obtain ⟨sink, rfl | rfl⟩ := hbrings
    · exact hbehind (run.contents_installSink sink)
    · exact hbehind (run.contents_replaceSink sink)
  · obtain ⟨hsame, hgrown⟩ := h.chunk_step hm fun sink =>
      ⟨fun heq => hbrings ⟨sink, .inl heq⟩, fun heq => hbrings ⟨sink, .inr heq⟩⟩
    obtain ⟨hfinished, hchunk⟩ := (forall_contents_iff hnone).1 hq
    exact (forall_contents_iff hnone).2 ⟨hsame ▸ hfinished, hgrown ▸ hgrow hchunk⟩

/-- **Every sink keeps a row of whole entries**, if new sinks are empty. -/
theorem Sound.rowed_step (h : run.Sound options) (hm : m.admitted run)
    (hb : (m.ledger run).brought = []) (hr : run.Rowed) : (run.step m).Rowed := by
  refine h.contents_step hm Entry.isRow_nil hr (fun sink hsink => ?_) fun hchunk =>
    hchunk.append (h.step m hm).2.row
  rw [m.content_of_brings hb hsink]
  exact Entry.isRow_nil

end Run

/-! ## 2. Drafts -/

/-- **What an open writer was given**: relations in entries that were cut off, and those of the
current entry. -/
structure Draft where
  closed : List Relation
  current : List Relation

def Draft.relations (d : Draft) : List Relation := d.closed ++ d.current

/-- **The writer holds the current relations** of a draft. -/
def Writer.Drafts (w : Writer) (d : Draft) (e : Epoch) : Prop :=
  ∃ b, w.Holds b (d.current.map Relation.encode) e

theorem Writer.Scored.not_gone {w : Writer} {r r' : Recorder} (h : w.Scored r r')
    (hk : r'.stats.checkpointsDropped = r.stats.checkpointsDropped) : ¬ w.Gone := by
  rintro hgone
  rcases h with ⟨halive, -⟩ | ⟨-, hscore⟩
  · exact hgone.dropped_ne halive
  · have hdropped : r'.stats.checkpointsDropped = r.stats.checkpointsDropped + 1 :=
      congrArg Prod.fst hscore
    omega

/-- **What a writer publishes yields its relations**, if there are any. -/
theorem Writer.Holds.yields {w : Writer} {b : Buffer} {current : List Relation} {e : Epoch}
    {r : Recorder} {out : List Buffer} (hw : w.Holds b (current.map Relation.encode) e)
    (h : r.Sound (b :: out) e) (hm : r.options.Modest w.kind) (now : UInt64) (flushpoint : Bool) :
    Entry.Yields
      [Entry.piece (current.map Relation.encode) w.startTime (w.elapsed now) flushpoint]
      (current.flatMap Relation.constants) :=
  .of_describes (Entry.describes_piece hm _ _ _ (hw.le_roomiest h))

/-- **A relation joins the current ones**, or those are cut off and it is the first one again. -/
theorem Writer.Holds.drafts_took {w w' : Writer} {b : Buffer} {d : Draft} {relation : Relation}
    {e : Epoch} {r : Recorder} {out : List Buffer}
    (hw : w.Holds b (d.current.map Relation.encode) e) (h : r.Sound (b :: out) e)
    (hm : r.options.Modest w.kind) (now : UInt64)
    (ht : w.Took b (d.current.map Relation.encode) relation.encode w' e) :
    ∃ d' cut, w'.Drafts d' e ∧ d'.closed = d.closed ++ cut ∧
      d'.relations = d.relations ++ [relation] ∧
      Entry.Yields (w.cutOff? relation.encode now).toList (cut.flatMap Relation.constants) := by
  obtain ⟨b', hb'⟩ := ht.holds
  rw [hw.cutOff?_eq]
  by_cases hc : w.Cuts b relation.encode
  · rw [if_pos hc] at hb' ⊢
    exact ⟨⟨d.closed ++ d.current, [relation]⟩, d.current, ⟨b', hb'⟩, rfl, rfl,
      hw.yields h hm now true⟩
  · rw [if_neg hc] at hb' ⊢
    have hdrafts : w'.Drafts ⟨d.closed, d.current ++ [relation]⟩ e := ⟨b', by simpa using hb'⟩
    exact ⟨_, [], hdrafts, (List.append_nil _).symm, (List.append_assoc ..).symm, .nil⟩

theorem forall₂_at {α β : Type} {R : α → β → Prop} {xs : List α} {ys : List β}
    (h : List.Forall₂ R xs ys) {i : Nat} {x : α} (hx : xs[i]? = some x) :
    ∃ y, ys[i]? = some y ∧ R x y ∧
      (∀ x' y', R x' y' → List.Forall₂ R (xs.set i x') (ys.set i y')) ∧
      List.Forall₂ R (xs.eraseIdx i) (ys.eraseIdx i) := by
  induction h generalizing i with
  | nil => cases hx
  | @cons x₁ y₁ xs ys hfirst hrest ih =>
    cases i with
    | zero =>
      obtain rfl := Option.some.inj hx
      exact ⟨y₁, rfl, hfirst, fun _ _ hr => .cons hr hrest, hrest⟩
    | succ i =>
      obtain ⟨y, hy, hr, hset, herase⟩ := ih hx
      exact ⟨y, hy, hr, fun x' y' hr' => .cons hfirst (hset x' y' hr'), .cons hfirst herase⟩

/-! ## 3. What is remembered -/

namespace Run

variable {options : RecorderOptions} {run run' : Run} {intake : Intake} {drafts : List Draft}
  {m : Move}

/-- **What was told is in entries and in drafts.** -/
structure Remembers (run : Run) (intake : Intake) (drafts : List Draft) : Prop where
  setting : run.recorder.setting = intake.setting
  writers : List.Forall₂ (fun w d => w.Drafts d run.recorder.epoch.current) run.writers drafts
  pending : intake.pending = drafts.map Draft.relations
  yields : Entry.Yields run.committed
    ((intake.told ++ drafts.flatMap Draft.closed).flatMap Relation.constants)
  rowed : run.Rowed

theorem discarded_step (hd : m.delivers run = true) : (m.ledger run).discarded = [] := by
  cases m with
  | clear => cases hd
  | _ => rfl

/-- **Where nothing is lost, a move adds what it publishes**, and leaves rows in all sinks. -/
theorem Sound.committed_step (h : run.Sound options) (hm : m.admitted run)
    (hd : m.delivers run = true) (hb : (m.ledger run).brought = [])
    (hu : (m.ledger run).unsent = []) (hr : run.Rowed) :
    (run.step m).committed.Perm (run.committed ++ (m.ledger run).published.entries) ∧
      (run.step m).Rowed :=
  ⟨(h.step m hm).2.committed hr (discarded_step hd) hu hb, h.rowed_step hm hb hr⟩

theorem writers_step (hm : m.byRecorder = true) : (run.step m).writers = run.writers := by
  cases m with
  | start | append | finish | abandon => cases hm
  | replaceSink sink =>
    show (run.replaceSink sink).2.writers = run.writers
    unfold Run.replaceSink
    rcases Fallible.runOn (Recorder.replaceSink sink) run.recorder with ⟨_ | _, _⟩ <;> rfl
  | _ => rfl

theorem Sound.forall₂_drafts (h : run.Sound options) (h' : run'.Sound options)
    (hw : run'.writers = run.writers)
    (hd : List.Forall₂ (fun w d => w.Drafts d run.recorder.epoch.current) run.writers drafts) :
    List.Forall₂ (fun w d => w.Drafts d run'.recorder.epoch.current) run'.writers drafts := by
  rw [hw]
  cases hall : run.writers with
  | nil =>
    rw [hall] at hd
    cases hd
    exact .nil
  | cons w rest =>
    have hmem : w ∈ run.writers := hall ▸ List.mem_cons_self
    rwa [h.current_eq h' hmem (hw ▸ hmem) rfl, ← hall]

namespace Remembers

/-- A new recorder was told of its host only. -/
theorem create {host : Host} {r : Recorder} (h : Recorder.create options host = .ok r) :
    ({ recorder := r } : Run).Remembers (Intake.of host []) [] := by
  obtain ⟨-, hpooled, hsink, -⟩ := Recorder.sound_create h
  have hrecorded : ({ recorder := r } : Run).recorded = [] := by
    rw [recorded_eq, Recorder.chunk, hsink]
    rfl
  refine ⟨?_, .nil, rfl, ?_, ?_⟩
  · unfold Recorder.create at h
    split at h
    · cases h
    · split at h
      · cases h
      · cases h
        rfl
  · rw [Run.committed, hrecorded, Entry.split_nil, entries, Recorder.entries, hpooled]
    exact .nil
  · rintro sink hsinks
    simp [sinks, hsink] at hsinks

theorem length_pending (hr : run.Remembers intake drafts) :
    intake.pending.length = run.writers.length := by
  rw [hr.pending, List.length_map, hr.writers.length_eq]

/-- **A move in which no writer begins, goes on or ends.** -/
theorem recount (hr : run.Remembers intake drafts) (hs : run.Sound options)
    (ho : ∀ kind, options.Modest kind) (ha : run.recorder.aborted = false)
    (hf : (Input.other m).Faithful run) (hm : m.byRecorder = true) :
    (run.step m).Remembers (intake.next (.other m)) drafts := by
  obtain ⟨hsetting, hrecites, hunsent⟩ := hs.recounts ho ha hf.admitted hf.delivers hm hf.sizes
  obtain ⟨hcommitted, hrowed⟩ :=
    hs.committed_step hf.admitted hf.delivers hf.fresh hunsent hr.rowed
  have hnext : intake.next (.other m) = { intake with
      setting := intake.setting.after m, told := intake.told ++ intake.setting.recited m } := by
    cases m <;> first | rfl | cases hm
  rw [hr.setting] at hsetting hrecites
  rw [hnext]
  refine ⟨hsetting, ?_, hr.pending, ?_, hrowed⟩
  · exact hs.forall₂_drafts (hs.step m hf.admitted).1 (writers_step hm) hr.writers
  · have hyields := hr.yields.append (hrecites.yields hf.kept)
    rw [← List.flatMap_append] at hyields
    refine hyields.of_perm hcommitted (List.Perm.flatMap_right _ ?_)
    simp only [List.append_assoc]
    exact List.perm_append_comm.append_left _

/-- **A writer begins**, and has a draft without relations. -/
theorem start (hr : run.Remembers intake drafts) (hs : run.Sound options)
    (ho : ∀ kind, options.Modest kind) (ha : run.recorder.aborted = false) {thread : ThreadId}
    {kind : BufferKind} (hf : (Input.other (.start thread kind)).Faithful run) :
    (run.step (.start thread kind)).Remembers (intake.next (.other (.start thread kind)))
      (drafts ++ [⟨[], []⟩]) := by
  obtain ⟨hcommitted, hrowed⟩ := hs.committed_step (m := .start thread kind) hf.admitted
    hf.delivers hf.fresh rfl hr.rowed
  have hkept : (run.step (.start thread kind)).recorder.stats.checkpointsDropped =
    run.recorder.stats.checkpointsDropped := hf.kept
  obtain ⟨w, r', hstep, hon, hw, hscored⟩ := hs.started thread kind hf.admitted
  rw [hstep] at hcommitted hrowed hkept ⊢
  obtain ⟨b, hb⟩ := hw.resolve_left ((hscored ha (ho kind)).not_gone hkept)
  have hdraft : w.Drafts ⟨[], []⟩ run.recorder.epoch.current := ⟨b, hb⟩
  refine ⟨hon.setting.trans hr.setting, ?_, ?_, ?_, hrowed⟩
  · dsimp only
    rw [hon.current]
    exact List.rel_append hr.writers (.cons hdraft .nil)
  · simp [Intake.next, hr.pending, Draft.relations]
  · have hyields := hr.yields.of_perm (hcommitted.trans (.of_eq (List.append_nil _))) (.refl _)
    simpa [Intake.next] using hyields

/-- **Some relations of one draft are committed.** -/
theorem yields_commit {told cut : List Relation} {es es' : List Bytes} {published : List Bytes}
    (h : Entry.Yields es ((told ++ drafts.flatMap Draft.closed).flatMap Relation.constants))
    (hp : Entry.Yields published (cut.flatMap Relation.constants))
    (hes : es'.Perm (es ++ published)) {i : Nat} {d : Draft} (hd : drafts[i]? = some d) :
    Entry.Yields es' ((told ++ (d.closed ++ cut ++
      (drafts.eraseIdx i).flatMap Draft.closed)).flatMap Relation.constants) := by
  obtain ⟨hlt, rfl⟩ := List.getElem?_eq_some_iff.1 hd
  have hall := h.append hp
  rw [← List.flatMap_append] at hall
  refine hall.of_perm hes (List.Perm.flatMap_right _ ?_)
  have hdrafts := (List.getElem_cons_eraseIdx_perm hlt).symm.flatMap_right Draft.closed
  rw [List.perm_iff_count]
  intro x
  have hx := hdrafts.count_eq x
  simp only [List.flatMap_cons, List.count_append] at hx ⊢
  omega

/-- **A relation is added to an open writer.** -/
theorem add (hr : run.Remembers intake drafts) (hs : run.Sound options)
    (ho : ∀ kind, options.Modest kind) {writer : Nat} {relation : Relation}
    (hf : (Input.add writer relation).Faithful run) :
    ∃ drafts', (run.step (.append writer relation.encode)).Remembers
      (intake.next (.add writer relation)) drafts' := by
  obtain ⟨hcommitted, hrowed⟩ := hs.committed_step (m := .append writer relation.encode)
    hf.admitted hf.delivers hf.fresh rfl hr.rowed
  have hkept : (run.step (.append writer relation.encode)).recorder.stats.checkpointsDropped =
    run.recorder.stats.checkpointsDropped := hf.kept
  cases hw : run.writers[writer]? with
  | none =>
    have hlong : intake.pending.length ≤ writer :=
      hr.length_pending ▸ List.getElem?_eq_none_iff.1 hw
    refine ⟨drafts, ?_⟩
    simpa [Run.step, Run.act, Run.append, hw, Intake.next, List.modify_eq_self hlong] using hr
  | some w =>
    obtain ⟨d, hd, ⟨b, hb⟩, hset, -⟩ := forall₂_at hr.writers hw
    obtain ⟨w', r', hstep, hon, htook⟩ := hs.appended hw hf.admitted
    obtain ⟨hs', -, -⟩ := hs.seen hw
    rw [hb.buffer] at hs'
    rw [hstep] at hcommitted hrowed hkept ⊢
    obtain ⟨htook, hscored⟩ := htook b _ hb
    have hsize : relation.encode.length ≤ Memory.addressable :=
      hf.sizes relation List.mem_cons_self
    obtain ⟨d', cut, hdrafts, hclosed, hrelations, hcut⟩ :=
      hb.drafts_took hs' (hs.options ▸ ho w.kind) run.recorder.clock
        (htook.resolve_left ((hscored (ho _) hsize).not_gone hkept))
    refine ⟨drafts.set writer d', hon.setting.trans hr.setting, ?_, ?_, ?_, hrowed⟩
    · dsimp only
      rw [hon.current]
      exact hset w' d' hdrafts
    · simp [Intake.next, hr.pending, List.modify_eq_set_getElem?, hd, hrelations, List.map_set]
    · have hlt : writer < drafts.length := (List.getElem?_eq_some_iff.1 hd).1
      have hperm := (List.set_perm_cons_eraseIdx hlt d').flatMap_right Draft.closed
      rw [List.flatMap_cons, hclosed] at hperm
      have hpublished : ((Move.append writer relation.encode).ledger run).published.entries =
          (w.cutOff? relation.encode run.recorder.clock).toList := by
        simp [Move.ledger, hw, Published.entries]
      refine (yields_commit hr.yields (hpublished ▸ hcut) hcommitted hd).of_perm (.refl _) ?_
      exact (hperm.symm.append_left _).flatMap_right _

/-- **A writer is at its end**, and all its relations are committed. -/
theorem finish (hr : run.Remembers intake drafts) (hs : run.Sound options)
    (ho : ∀ kind, options.Modest kind) {writer : Nat}
    (hf : (Input.other (.finish writer)).Faithful run) :
    (run.step (.finish writer)).Remembers (intake.next (.other (.finish writer)))
      (drafts.eraseIdx writer) := by
  obtain ⟨hcommitted, hrowed⟩ := hs.committed_step (m := .finish writer) hf.admitted
    hf.delivers hf.fresh rfl hr.rowed
  cases hw : run.writers[writer]? with
  | none =>
    have hlong : intake.pending.length ≤ writer :=
      hr.length_pending ▸ List.getElem?_eq_none_iff.1 hw
    have hshort : drafts.length ≤ writer := hr.writers.length_eq ▸ List.getElem?_eq_none_iff.1 hw
    simpa [Run.step, Run.act, Run.close, hw, Intake.next, List.eraseIdx_of_length_le hlong,
      List.eraseIdx_of_length_le hshort, List.getElem?_eq_none_iff.2 hlong] using hr
  | some w =>
    obtain ⟨d, hd, ⟨b, hb⟩, -, herase⟩ := forall₂_at hr.writers hw
    obtain ⟨r', hstep, hon⟩ := hs.finished hw
    obtain ⟨hs', -, -⟩ := hs.seen hw
    rw [hb.buffer] at hs'
    have hm : run.recorder.options.Modest w.kind := hs.options ▸ ho w.kind
    have hempty : w.segments = 0 ↔ d.current = [] := by
      have hcount := hm.length_lt (hb.le_roomiest hs')
      simpa using hb.segments_eq_zero_iff (by simpa using hcount)
    have hlast : Entry.Yields ((Move.finish writer).ledger run).published.entries
        (d.current.flatMap Relation.constants) := by
      by_cases hcurrent : d.current = []
      · simp [Move.ledger, hw, hb.lastPiece?_eq, hempty, hcurrent, Published.entries,
          Entry.Yields.nil]
      · simpa [Move.ledger, hw, hb.lastPiece?_eq, hempty, hcurrent, Published.entries] using
          hb.yields hs' hm run.recorder.clock false
    rw [hstep] at hcommitted hrowed ⊢
    refine ⟨hon.setting.trans hr.setting, ?_, ?_, ?_, hrowed⟩
    · dsimp only
      rw [hon.current]
      exact herase
    · simp [Intake.next, hr.pending, List.eraseIdx_map]
    · have hyields := yields_commit hr.yields hlast hcommitted hd
      simpa [Intake.next, hr.pending, hd, Draft.relations] using hyields

/-- **Any faithful input is remembered.** -/
theorem step (hr : run.Remembers intake drafts) (hs : run.Sound options)
    (ho : ∀ kind, options.Modest kind) (ha : run.recorder.aborted = false) {input : Input}
    (hf : input.Faithful run) :
    ∃ drafts', (run.step input.move).Remembers (intake.next input) drafts' := by
  cases input with
  | add writer relation => exact hr.add hs ho hf
  | other m =>
    cases hm : m.byRecorder with
    | true => exact ⟨drafts, hr.recount hs ho ha hf hm⟩
    | false =>
      cases m with
      | start thread kind => exact ⟨_, hr.start hs ho ha hf⟩
      | finish writer => exact ⟨_, hr.finish hs ho hf⟩
      | append | abandon => cases hf.orderly
      | _ => cases hm

end Remembers

/-! ## 4. Recordings -/

/-- **A run of which nothing is lost**, and its inputs. -/
inductive Recording (options : RecorderOptions) (host : Host) : List Input → Run → Prop where
  | create {r : Recorder} (h : Recorder.create options host = .ok r) :
      Recording options host [] { recorder := r }
  | step {inputs : List Input} {run : Run} (c : Recording options host inputs run) (input : Input)
      (hf : input.Faithful run) : Recording options host (inputs ++ [input]) (run.step input.move)

variable {host : Host} {inputs : List Input}

theorem Recording.reachable (c : Recording options host inputs run) : Reachable options run := by
  induction c with
  | create h => exact .create h
  | step _ input hf ih => exact ih.step input.move hf.admitted

/-- **A recording remembers what it was told**, unless the recorder was aborted. -/
theorem Recording.remembers (c : Recording options host inputs run)
    (ho : ∀ kind, options.Modest kind) :
    run.recorder.aborted = true ∨ ∃ drafts, run.Remembers (Intake.of host inputs) drafts := by
  induction c with
  | create h => exact .inr ⟨[], .create h⟩
  | @step inputs run c input hf ih =>
    have hs := c.reachable.sound
    rw [Intake.of_append]
    cases ha : run.recorder.aborted with
    | true => exact .inl (hs.aborted_step _ ha)
    | false =>
      obtain ⟨drafts, hr⟩ := ih.resolve_left (by simp [ha])
      exact .inr (hr.step hs ho ha hf)

/-- **A recording that ends with a drain that succeeds.** -/
inductive Drained (options : RecorderOptions) (host : Host) : List Input → Run → Prop where
  | drain {inputs : List Input} {run : Run} (c : Recording options host inputs run) {m : Move}
      (hm : m = .write ∨ m = .flushTypeSet ∨ m = .rotate) (hf : (Input.other m).Faithful run)
      (hok : run.fault? m = none) : Drained options host (inputs ++ [.other m]) (run.step m)

theorem pooled_of_drain {x : Action Nat} {relations : List Relation} {es unsent : List Bytes}
    {q : Recorder → Prop} (hact : run.act m = run.perform x) (hok : run.fault? m = none)
    (hx : Ends x run.recorder fun answer r' => Refused answer ∨
      (run.recorder.Drains relations es unsent answer r' ∧ q r')) :
    ∀ b ∈ (run.step m).recorder.pooled, b.isEmpty = true := by
  unfold Run.step
  simp only [Run.fault?, hact, Run.perform] at hok ⊢
  rcases hrun : Fallible.runOn x run.recorder with ⟨fault | n, r'⟩
  · rw [hrun] at hok
    cases hok
  · obtain ⟨hdrains, -⟩ := (hx.run_eq hrun).resolve_left (not_refused_ok n)
    exact hdrains.empty ⟨n, rfl⟩

theorem live_of_drain (hm : m = .write ∨ m = .flushTypeSet ∨ m = .rotate)
    (hok : run.fault? m = none) :
    run.recorder.aborted = false := by
  cases ha : run.recorder.aborted with
  | false => rfl
  | true =>
    rcases hm with rfl | rfl | rfl
    · simp [fault?, act, Run.perform, Recorder.runOn_write_of_aborted ha, faultOf] at hok
    · simp [fault?, act, Run.perform, Recorder.runOn_flushTypeSet_of_aborted ha, faultOf] at hok
    · simp [fault?, act, Run.perform, Recorder.runOn_rotate_of_aborted ha, faultOf] at hok

theorem equipped_of_rotate (hok : run.fault? .rotate = none) :
    run.recorder.setting.sink = true := by
  have ha := live_of_drain (.inr (.inr rfl)) hok
  cases hsink : run.recorder.sink with
  | none =>
    simp [fault?, act, Run.perform, Recorder.rotate, Recorder.detachForRotation,
      Recorder.ensureLive, Recorder.ensureSink, ha, hsink, faultOf] at hok
  | some sink => exact congrArg Option.isSome hsink

theorem entries_eq_nil (hw : run.writers = [])
    (hp : ∀ b ∈ run.recorder.pooled, b.isEmpty = true) : run.entries = [] := by
  rw [entries, held_eq_nil hw, Recorder.entries, List.append_nil, List.flatMap_eq_nil_iff]
  exact fun b hb => Recorder.entries_of_isEmpty (hp b hb)

/-- **After a drain that succeeds no entry is in any buffer**, and no writer is open. -/
theorem Sound.emptied (h : run.Sound options) (ho : ∀ kind, options.Modest kind)
    (hm : m = .write ∨ m = .flushTypeSet ∨ m = .rotate) (hf : m.admitted run)
    (hs : ∀ relation ∈ run.recorder.setting.recited m, relation.encode.length ≤ Memory.addressable)
    (hok : run.fault? m = none) : (run.step m).writers = [] ∧ (run.step m).entries = [] := by
  have ha := live_of_drain hm hok
  have ho : run.recorder.options.Modest .global := h.options ▸ ho .global
  have hdrains : m.drains = true ∧ m.byRecorder = true := by
    rcases hm with rfl | rfl | rfl <;> exact ⟨rfl, rfl⟩
  have hwriters : (run.step m).writers = [] :=
    (writers_step hdrains.2).trans (h.writers_eq_nil (hf.1 hdrains.1))
  have hpooled : ∀ b ∈ (run.step m).recorder.pooled, b.isEmpty = true := by
    rcases hm with rfl | rfl | rfl
    · exact pooled_of_drain rfl hok (h.recorder.write_drains h.barrier)
    · exact pooled_of_drain rfl hok (h.recorder.flushTypeSet_drains h.barrier ha ho hs)
    · have hsome := equipped_of_rotate hok
      have hrecited : run.recorder.setting.recited .rotate = run.recorder.setting.rotation :=
        if_pos hsome
      exact pooled_of_drain rfl hok
        (h.recorder.rotate_drains h.barrier ha ho hsome (hrecited ▸ hs))
  exact ⟨hwriters, entries_eq_nil hwriters hpooled⟩

/-- **What is read from all sinks**, one after the other. -/
def found (run : Run) : Except Damage (List Constant) := do
  let rows ← run.sinks.mapM fun sink => Entry.walk sink.content
  pure rows.flatten

/-- **Sinks with readable entries are read back.** -/
theorem Rowed.read (hr : run.Rowed) {constants : List Constant}
    (hy : Entry.Yields (Entry.split run.recorded) constants) :
    (∀ sink ∈ run.sinks, (∃ summary, Summary.ofChunk sink.content = .ok summary) ∧
      ∃ table, ConstantTable.ofChunk sink.content = .ok table) ∧
    ∃ found, run.found = .ok found ∧ found.Perm constants := by
  have hsplit : Entry.split run.recorded = run.sinks.flatMap fun s => Entry.split s.content :=
    (Entry.split_flatMap hr).2
  have hread : ∀ sink ∈ run.sinks,
      Entry.walk sink.content = .ok ((Entry.split sink.content).flatMap Entry.constantsOf) ∧
        (∃ summary, Summary.ofChunk sink.content = .ok summary) ∧
        ∃ table, ConstantTable.ofChunk sink.content = .ok table := by
    intro sink hs
    have hwalk := Entry.walk_flatten fun e he => hy.readable e
      (hsplit ▸ List.mem_flatMap.2 ⟨sink, hs, he⟩)
    rwa [hr sink hs] at hwalk
  refine ⟨fun sink hs => (hread sink hs).2, _, ?_, hy.perm⟩
  have hrows : run.sinks.mapM (fun sink => Entry.walk sink.content) =
      .ok (run.sinks.map fun s => (Entry.split s.content).flatMap Entry.constantsOf) :=
    mapM_eq_ok fun sink hs => (hread sink hs).1
  rw [found, hrows, hsplit, List.flatMap_assoc]
  rfl

theorem Drained.reads (h : Drained options host inputs run) (ho : ∀ kind, options.Modest kind) :
    (∀ sink ∈ run.sinks, (∃ summary, Summary.ofChunk sink.content = .ok summary) ∧
      ∃ table, ConstantTable.ofChunk sink.content = .ok table) ∧
    ∃ found, run.found = .ok found ∧
      found.Perm ((Intake.of host inputs).told.flatMap Relation.constants) := by
  cases h with
  | @drain inputs run c m hm hf hok =>
    have hs := c.reachable.sound
    have ha := live_of_drain hm hok
    obtain ⟨hwriters, hentries⟩ : (run.step (Input.other m).move).writers = [] ∧
        (run.step (Input.other m).move).entries = [] := hs.emptied ho hm hf.admitted hf.sizes hok
    obtain ⟨drafts, hr⟩ := (c.remembers ho).resolve_left (by simp [ha])
    obtain ⟨drafts', hr'⟩ := hr.step hs ho ha hf
    rw [← Intake.of_append] at hr'
    -- No writer is open, so nothing is in drafts, and nothing is in buffers either.
    obtain rfl : drafts' = [] := by
      have hnone := hr'.writers
      rwa [hwriters, List.forall₂_nil_left_iff] at hnone
    have hyields := hr'.yields
    rw [Run.committed, hentries, List.nil_append, List.flatMap_nil, List.append_nil] at hyields
    exact hr'.rowed.read hyields

/-- **What is recorded is what is read back.**  After a drain that succeeds, every sink is accepted
as a whole, and the constants that are found in all of them are those of the relations that finished
writers were given and of the relations that the recorder wrote itself, each as often as it was
written.  With any other options the same inputs lead to the same constants.

Sinks may be replaced on the way, epochs may flip, and the pieces of one checkpoint may lie in
several buffers: none of this can be told from what is read back.  The inputs only have to be
faithful, so that no checkpoint is dropped and nothing is discarded. -/
theorem Drained.read_back (h : Drained options host inputs run)
    (ho : ∀ kind, options.Modest kind) :
    (∀ sink ∈ run.sinks, (∃ summary, Summary.ofChunk sink.content = .ok summary) ∧
      ∃ table, ConstantTable.ofChunk sink.content = .ok table) ∧
    ∃ found, run.found = .ok found ∧
      found.Perm ((Intake.of host inputs).told.flatMap Relation.constants) ∧
      ∀ options' run', Drained options' host inputs run' → (∀ kind, options'.Modest kind) →
        ∃ found', run'.found = .ok found' ∧ found'.Perm found := by
  obtain ⟨haccepted, found, hfound, hperm⟩ := h.reads ho
  refine ⟨haccepted, found, hfound, hperm, fun options' run' h' ho' => ?_⟩
  obtain ⟨-, found', hfound', hperm'⟩ := h'.reads ho'
  exact ⟨found', hfound', hperm'.trans hperm.symm⟩

def feed (run : Run) (inputs : List Input) : Run :=
  inputs.foldl (fun run input => run.step input.move) run

/-- All of some inputs are faithful, each where it comes. -/
def Takes (run : Run) : List Input → Prop
  | [] => True
  | input :: rest => input.Faithful run ∧ (run.step input.move).Takes rest

instance decidableTakes (run : Run) : (inputs : List Input) → Decidable (run.Takes inputs)
  | [] => isTrue trivial
  | input :: rest =>
    have := decidableTakes (run.step input.move) rest
    inferInstanceAs (Decidable (input.Faithful run ∧ (run.step input.move).Takes rest))

theorem Recording.feed (c : Recording options host inputs run) (more : List Input)
    (hf : run.Takes more) : Recording options host (inputs ++ more) (run.feed more) := by
  induction more generalizing inputs run with
  | nil =>
    rw [List.append_nil]
    exact c
  | cons input rest ih =>
    rw [List.append_cons]
    exact ih (c.step input hf.1) hf.2

/-- A writer of a carrier thread is given two relations while a constant waits.  In the next chunk
a constant is written again, and a virtual thread is described by its id. -/
def twoChunks : List Input :=
  [.other (.installSink {}), .other (.start 7 .threadLocal), .add 0 ⟨5, [(1, [1, 2, 3])]⟩,
   .other (.registerConstant ⟨200, 1, [7], none⟩), .add 0 ⟨6, [(2, List.replicate 10 4)]⟩,
   .other .writeTypeSet, .other (.finish 0), .other .write, .other (.replaceSink {}),
   .other (.start 9 .global), .add 0 ⟨5, [(3, []), (1, [1, 2, 3])]⟩, .other (.finish 0),
   .other (.writeSimplified 9)]

/-- The first checkpoint is cut in two, and two sinks have what was told. -/
theorem Drained.read_back_two_chunks :
    let run := (small.feed twoChunks).step .write
    run.sinks.length = 2 ∧ run.recorder.stats.flushes = 1 ∧
    ∃ found, run.found = .ok found ∧
      found.Perm [(200, 1, [7]), (5, 1, [1, 2, 3]), (6, 2, List.replicate 10 4), (5, 3, []),
        (5, 1, [1, 2, 3]), (ConstantType.thread, 9,
          ThreadInfo.threadValue 0 "" virtualGroupId true none)] := by
  intro run
  have hfacts : small.Takes twoChunks ∧ (Input.other .write).Faithful (small.feed twoChunks) ∧
      (small.feed twoChunks).fault? .write = none ∧ run.sinks.length = 2 ∧
      run.recorder.stats.flushes = 1 ∧ (∀ kind ∈ BufferKind.all, smallOptions.Modest kind) ∧
      (Intake.of {} (twoChunks ++ [.other .write])).told.flatMap Relation.constants =
        [(200, 1, [7]), (5, 1, [1, 2, 3]), (6, 2, List.replicate 10 4), (5, 3, []),
          (5, 1, [1, 2, 3]), (ConstantType.thread, 9,
            ThreadInfo.threadValue 0 "" virtualGroupId true none)] := by
    decide +kernel
  obtain ⟨htakes, hf, hok, hsinks, hflushes, ho, htold⟩ := hfacts
  have c : Recording smallOptions {} twoChunks (small.feed twoChunks) :=
    (Recording.create create_small).feed twoChunks htakes
  have hdrained : Drained smallOptions {} (twoChunks ++ [.other .write]) run :=
    .drain c (.inl rfl) hf hok
  obtain ⟨-, found, hfound, hperm, -⟩ :=
    hdrained.read_back fun kind => ho kind (by cases kind <;> decide)
  exact ⟨hsinks, hflushes, found, hfound, htold ▸ hperm⟩

end Run

end TraceRecorder
