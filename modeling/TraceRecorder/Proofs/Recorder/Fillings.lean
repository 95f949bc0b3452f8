/-
# Filling a chunk

Between two rotations a recorder is given checkpoints, and the second rotation makes a chunk of
them.  Here no memory is refused and every call of the sink is accepted, and what is asked is how
many checkpoints a reader finds in the chunk then.

* `Adding`: an operation that writes so many checkpoints, each of which is counted as written or as
  dropped.  Operations in a row add up (`Adding.bind`, `Adding.forM`);
* `Sound.rotate_closes`: a rotation adds three, and leaves nothing behind;
* `Adds.fills`: so the chunk has all that were added and not dropped, and can be read.
-/
import TraceRecorder.Proofs.Recorder.Returns
import TraceRecorder.Proofs.Recorder.Seals
import TraceRecorder.Proofs.Recorder.TypeSets

namespace TraceRecorder

open Fallible (Answers Ends Keeps)

namespace Recorder

variable {r r' r'' : Recorder} {out : List Buffer}

/-! ## 1. Checkpoints that are added -/

/-- **So many checkpoints are counted meanwhile**, as written or as dropped. -/
def CountsAll (r r' : Recorder) (count : Nat) : Prop := ∃ n m, r.Counts r' n m ∧ n + m = count

theorem CountsAll.nothing (hw : r'.stats.checkpointsWritten = r.stats.checkpointsWritten)
    (hd : r'.stats.checkpointsDropped = r.stats.checkpointsDropped) : r.CountsAll r' 0 :=
  ⟨0, 0, ⟨hw, hd⟩, rfl⟩

theorem CountsAll.one (h : r.Counts r' 1 0 ∨ r.Counts r' 0 1) : r.CountsAll r' 1 :=
  h.elim (fun h => ⟨1, 0, h, rfl⟩) fun h => ⟨0, 1, h, rfl⟩

theorem CountsAll.trans {n m : Nat} (h : r.CountsAll r' n) (h' : r'.CountsAll r'' m) :
    r.CountsAll r'' (n + m) := by
  obtain ⟨n₁, m₁, hc, rfl⟩ := h
  obtain ⟨n₂, m₂, hc', rfl⟩ := h'
  exact ⟨n₁ + n₂, m₁ + m₂, hc.trans hc', by omega⟩

theorem CountsAll.sum {n : Nat} (h : r.CountsAll r' n) :
    r'.stats.checkpointsWritten + r'.stats.checkpointsDropped =
        r.stats.checkpointsWritten + r.stats.checkpointsDropped + n ∧
      r.stats.checkpointsDropped ≤ r'.stats.checkpointsDropped := by
  obtain ⟨n, m, hc, rfl⟩ := h
  have hw := hc.written
  have hd := hc.dropped
  omega

/-- **Checkpoints of relations are written**, while nobody holds a buffer.  Nothing changes but what
writers change. -/
structure Adds (r : Recorder) (count : Nat) (r' : Recorder) : Prop where
  published : ∃ p, Trades r [] r' [] r.epoch.current p ∧ p.Seals r.options Relation.Encodes
  kept : r'.writerless = r.writerless
  counted : r.CountsAll r' count

namespace Adds

variable {n m : Nat}

theorem refl (h : r.Sound [] r.epoch.current) : r.Adds 0 r :=
  ⟨⟨{}, .refl h, .nothing⟩, rfl, .nothing rfl rfl⟩

theorem epoch (h : r.Adds n r') : r'.epoch = r.epoch := by
  obtain ⟨p, ht, -⟩ := h.published
  exact ht.epoch

theorem sound (h : r.Adds n r') : r'.Sound [] r'.epoch.current := by
  obtain ⟨p, ht, -⟩ := h.published
  rw [h.epoch]
  exact ht.sound

theorem options (h : r.Adds n r') : r'.options = r.options := (congrArg Recorder.options h.kept :)

theorem aborted (h : r.Adds n r') : r'.aborted = r.aborted :=
  (congrArg Recorder.aborted h.kept :)

/-- **First some are written, then others.** -/
theorem trans (h : r.Adds n r') (h' : r'.Adds m r'') : r.Adds (n + m) r'' where
  published := by
    obtain ⟨p, ht, hp⟩ := h.published
    obtain ⟨q, ht', hq⟩ := h'.published
    rw [h.epoch] at ht'
    rw [h.options] at hq
    exact ⟨p ++ q, ht.trans ht', hp.append hq⟩
  kept := h'.kept.trans h.kept
  counted := h.counted.trans h'.counted

end Adds

/-- **An operation writes so many checkpoints** if it answers, in any live recorder of which nobody
holds a buffer. -/
def Adding {α : Type} (count : Nat) (x : Action α) : Prop :=
  ∀ r : Recorder, r.Sound [] r.epoch.current → r.aborted = false →
    Answers x r fun _ r' => r.Adds count r'

namespace Adding

variable {α β : Type} {n m : Nat}

theorem pure (a : α) : Adding 0 (Pure.pure a) := fun _ h _ => Answers.pure (.refl h)

/-- **Operations in a row add up.** -/
theorem bind {x : Action α} {f : α → Action β} (hx : Adding n x) (hf : ∀ a, Adding m (f a)) :
    Adding (n + m) (x >>= f) := by
  intro r h ha
  refine (hx r h ha).bind fun a r₁ hfirst => ?_
  exact (hf a r₁ hfirst.sound (hfirst.aborted.trans ha)).mono fun _ _ hlast => hfirst.trans hlast

/-- **One operation for each member of a list.** -/
theorem forM {xs : List α} {f : α → Action Unit} (hf : ∀ a ∈ xs, Adding n (f a)) :
    Adding (xs.length * n) (xs.forM f) := by
  induction xs with
  | nil =>
    rw [List.length_nil, Nat.zero_mul]
    exact .pure ()
  | cons a xs ih =>
    have hrest := ih fun b hb => hf b (List.mem_cons_of_mem _ hb)
    rw [List.length_cons, Nat.succ_mul, Nat.add_comm]
    exact (hf a List.mem_cons_self).bind fun _ => hrest

/-- **A checkpoint of relations is one**, if one of them has pairs. -/
theorem writeRelations (thread : ThreadId) (kind : BufferKind) {relations : List Relation}
    (hs : ∀ relation ∈ relations, relation.encode.length ≤ Memory.addressable)
    (hfew : relations.length < UInt32.size)
    (hne : ∃ relation ∈ relations, relation.isEmpty = false) :
    Adding 1 (Recorder.writeRelations thread kind false relations) := by
  intro r h ha
  have hkept := (keeps_writeRelations thread kind false relations).ends r
  refine .of_ends ((h.writeRelations thread kind false rfl relations).and
    ((h.writeRelations_counts ha thread kind false rfl hs (.inr hfew) hne).and hkept)) ?_
  rintro n r' ⟨htrades, hcounts, hkept⟩
  exact
    { published := ⟨_, htrades.resolve_left (not_refused_ok _),
        h.relationEntries_seals thread kind false rfl relations⟩
      kept := hkept
      counted := .one (hcounts.resolve_left (not_refused_ok _)).2 }

theorem releaseThread (thread : ThreadId) : Adding 0 (Recorder.releaseThread thread) := by
  intro r h ha
  have hkept := (keeps_releaseThread thread).ends r
  refine .of_ends ((h.releaseThread thread).and hkept) ?_
  rintro _ r' ⟨⟨-, htrades⟩, hkept⟩
  have hwritten := htrades.last
  have hdropped : r'.stats.checkpointsDropped = r.stats.checkpointsDropped :=
    (congrArg (fun r => r.stats.checkpointsDropped) hkept :)
  exact
    { published := ⟨{}, htrades, .nothing⟩
      kept := (congrArg writerless hkept :)
      counted := .nothing hwritten hdropped }

end Adding

/-! ## 2. The checkpoints of a rotation -/

/-- **All three checkpoints of a rotation have something to tell**, and memory can hold it and a
word count it. -/
structure TellsAll (r : Recorder) : Prop where
  statics : ∃ relation ∈ r.statics, relation.isEmpty = false
  threads : r.host.liveThreads ≠ []
  types : r.typeSet ≠ []
  sizes : ∀ relation ∈ r.rotationRelations, relation.encode.length ≤ Memory.addressable
  few : r.rotationRelations.length < UInt32.size

theorem TellsAll.few_parts (h : r.TellsAll) : r.statics.length < UInt32.size ∧
    (ThreadInfo.table r.host.liveThreads).length < UInt32.size ∧
    r.typeSet.relations.length < UInt32.size := by
  have hfew := h.few
  rw [rotationRelations, List.length_append, List.length_append] at hfew
  omega

/-- The static constants and the threads are two checkpoints. -/
theorem Sound.writeStaticsAndThreads_adds (h : r.Sound [] r.epoch.current)
    (ha : r.aborted = false) (ht : r.TellsAll) :
    Answers Recorder.writeStaticsAndThreads r fun _ r' => r.Adds 2 r' := by
  obtain ⟨hfew, hfew', -⟩ := ht.few_parts
  have hstatics : Adding 1 (Recorder.writeRelations recorderThread .global false r.statics) :=
    .writeRelations _ _ (fun relation hr => ht.sizes relation (List.mem_append_left _ hr))
      hfew ht.statics
  have hpairs : ∃ relation ∈ ThreadInfo.table r.host.liveThreads, relation.isEmpty = false :=
    ⟨_, List.mem_cons_self, by simp [Relation.isEmpty, ht.threads]⟩
  have hthreads : Adding 1 (Recorder.writeRelations recorderThread .global false
      (ThreadInfo.table r.host.liveThreads)) :=
    .writeRelations _ _ (fun relation hr =>
      ht.sizes relation (List.mem_append_right _ (List.mem_append_left _ hr))) hfew' hpairs
  refine Answers.bind (Answers.after (Fallible.runOn_get r) (hstatics r h ha)) ?_
  intro n r₁ hfirst
  have hhost : r₁.host = r.host := (congrArg Recorder.host hfirst.kept :)
  rw [← hhost] at hthreads
  refine Answers.bind (Answers.after (Fallible.runOn_get r₁)
    (hthreads r₁ hfirst.sound (hfirst.aborted.trans ha))) ?_
  exact fun m r₂ hlast => Answers.pure (hfirst.trans hlast)

/-- **A rotation adds three checkpoints before it uses the sink**, and no constant waits then. -/
theorem Sound.detachForRotation_counts (h : r.Sound [] r.epoch.current) (ha : r.aborted = false)
    (ht : r.TellsAll) :
    Answers Recorder.detachForRotation r fun _ r' => r.CountsAll r' 3 ∧ r'.typeSet = [] := by
  refine .of_ends h.firstHalf fun d r' hcase => ?_
  cases hcase with
  | @detached n m d r₁ r₂ r₃ hready hfirst htrades hlast htrades' hdetach =>
    have hadds := (h.writeStaticsAndThreads_adds ha ht).run_eq hfirst
    have hwaiting : r₁.typeSet = r.typeSet := (congrArg typeSet hadds.kept :)
    have hcounts := ((htrades.sound.moveEpoch EpochController.raise).writeTypeSet_counts
      (hadds.aborted.trans ha) true (runOn_leaseEpoch_raise htrades.epoch)
      (fun relation hr => ht.sizes relation (List.mem_append_right _ (List.mem_append_right _
        (hwaiting ▸ hr)))) (.inr (hwaiting ▸ ht.few_parts.2.2))).run_eq hlast
    have hone : r₁.CountsAll r₂ 1 := by
      rcases hcounts.resolve_left (not_refused_ok m) with ⟨hnone, -⟩ | ⟨-, hcounts⟩
      · exact absurd (hwaiting.symm.trans hnone) ht.types
      · exact .one (hcounts.imp (fun h => ⟨h.written, h.dropped⟩) fun h => ⟨h.written, h.dropped⟩)
    have hnone : r₂.typeSet = [] := by
      have hnone := typeSet_writeTypeSet true (r₁.moveEpoch EpochController.raise)
      rwa [hlast] at hnone
    have hkept : r₃.leaseless = r₂.leaseless :=
      ((keeps_detach r.epoch.current).ends r₂).run_eq hdetach
    have hdetached : r₂.CountsAll r₃ 0 :=
      .nothing (congrArg (fun r => r.stats.checkpointsWritten) hkept :)
        (congrArg (fun r => r.stats.checkpointsDropped) hkept :)
    obtain ⟨n, m, hc, hsum⟩ := (hadds.counted.trans hone).trans hdetached
    exact ⟨⟨n, m, ⟨hc.written, hc.dropped⟩, hsum⟩, (congrArg typeSet hkept :).trans hnone⟩

/-! ## 3. Rotations -/

/-- **A recorder between two chunks**: it is ready for writers, and nothing is pooled. -/
structure Idle (r : Recorder) : Prop where
  sound : r.Sound [] r.epoch.current
  barrier : r.epoch.barrier = none
  aborted : r.aborted = false
  empty : ∀ b ∈ r.pooled, b.isEmpty = true

theorem Idle.entries (h : r.Idle) : r.entries [] = [] := by
  rw [Recorder.entries, List.append_nil]
  refine List.flatMap_eq_nil_iff.2 fun b hb => ?_
  exact entries_of_isEmpty (h.empty b hb)

/-- **A rotation that closes a chunk**: the chunk has all that was pooled and published. -/
structure Closes (r : Recorder) (gained : Bytes) (r' : Recorder) : Prop where
  idle : r'.Idle
  typeSet : r'.typeSet = []
  sink : ∃ s, r'.sink = some s ∧ s.Reliable
  epoch : r'.epoch = r.epoch.shifted
  settles : ∃ p, Settles r [] r' [] { published := p, accepted := gained } ∧
    p.Seals r.options Relation.Encodes
  counted : r.CountsAll r' 3
  written : r'.stats.bytesWritten = r.stats.bytesWritten + gained.length
  rotations : r'.stats.rotations = r.stats.rotations + 1
  kept : r'.rotationless = r.rotationless

/-- **A rotation closes the chunk** if it answers, and the answer is how much it appended. -/
theorem Sound.rotate_closes (h : r.Sound [] r.epoch.current) (hb : r.epoch.barrier = none)
    (ha : r.aborted = false) {s : Sink} (hsink : r.sink = some s) (hr : s.Reliable)
    (ht : r.TellsAll) :
    Answers Recorder.rotate r fun n r' =>
      ∃ gained : Bytes, n = gained.length ∧ r.Closes gained r' := by
  have hfirst := ((h.detachForRotation hb).and (h.detachForRotation_retires hb)).and
    (h.detachForRotation_counts ha ht)
  have hcollects := h.detachForRotation_collects hb
  rcases hrun : Fallible.runOn Recorder.detachForRotation r with ⟨fault | d, r₁⟩
  · exact Ends.stop hrun fun n heq => by cases heq
  obtain ⟨⟨hpost, hretires⟩, hcounts⟩ := hfirst.run_eq hrun
  obtain ⟨hp, -, hk, hs₁, hepoch, hempty, hsettles⟩ := hpost.resolve_left (not_refused_ok _)
  have hdrain := ends_drain hrun hs₁ hk (hp.sink.trans hsink)
  have hunsent := hcollects.unsent_eq_nil
  have hwritten := hcollects.written keeps_written_detachForRotation
  rcases hemit : Fallible.runOn (Recorder.emit d) r₁ with ⟨answer, r'⟩
  have hwhole : Fallible.runOn Recorder.rotate r = (answer, r') := by
    simp [Recorder.rotate, hrun, hemit]
  obtain ⟨s', hs', honly, hdrain, hreliable⟩ := hdrain.run_eq hwhole
  obtain ⟨hs'r, rfl, hsent⟩ := hreliable hr
  have hunsent := ((hunsent.run_eq hwhole).resolve_left (not_refused_ok _)).resolve_left
    fun hbad => hbad.elim fun _ heq => by cases heq
  have hsettles := hsettles.thenSent hdrain
  rw [hunsent] at hsettles
  have hlength : usedBytes d.buffers = (r.sent Recorder.detachForRotation).length := by
    rw [hsent, ← usedBytes_eq_length, usedBytes_laden]
  have hemitted : r'.sinkless = r₁.sinkless := ((keeps_emit d).ends r₁).run_eq hemit
  have hepoch' : r'.epoch = r.epoch.shifted :=
    (epoch_eq_of_surroundings_eq honly.surroundings).trans hepoch
  have haborted := h.aborted_rotate
  rw [hwhole] at haborted
  have hempty' : ∀ b ∈ r'.pooled, b.isEmpty = true := by rwa [honly.pooled]
  obtain ⟨hcounts, hnone⟩ := hcounts d rfl
  have hcounted : r₁.CountsAll r' 0 :=
    .nothing (congrArg (fun r => r.stats.checkpointsWritten) hemitted :)
      (congrArg (fun r => r.stats.checkpointsDropped) hemitted :)
  have hidle : r'.Idle :=
    { sound := hs'.retag (by rwa [List.append_nil]) _
      barrier := by rw [hepoch']; exact hb
      aborted := haborted.trans ha
      empty := hempty' }
  refine Ends.of_run hwhole ?_
  rintro _ ⟨⟩
  exact ⟨_, hlength,
    { idle := hidle
      typeSet := (congrArg typeSet hemitted :).trans hnone
      sink := ⟨s', honly.sink, hs'r⟩
      epoch := hepoch'
      settles := ⟨_, hsettles, h.rotationEntries_seals⟩
      counted := hcounts.trans hcounted
      written := hwritten.run_eq hwhole
      rotations := (congrArg (fun r => r.stats.rotations) hemitted :).trans
        (hretires d rfl).2.rotations
      kept := (keeps_rotate.ends r).run_eq hwhole }⟩

/-! ## 4. Chunks -/

/-- **A chunk was filled** with so many checkpoints.  It is read without damage, and unless one of
them was dropped all of them are found. -/
structure Fills (r : Recorder) (count : Nat) (gained : Bytes) (r' : Recorder) : Prop where
  epoch : r'.epoch = r.epoch.shifted
  chunk : r'.chunk = r.chunk ++ gained
  counted : r.CountsAll r' count
  written : r'.stats.bytesWritten = r.stats.bytesWritten + gained.length
  rotations : r'.stats.rotations = r.stats.rotations + 1
  damage : (Entry.readAll gained).damage = none
  checkpoints : r'.stats.checkpointsDropped = r.stats.checkpointsDropped →
    (Entry.readAll gained).items.countP (!·.header.flushpoint) = count

/-- The recorder without what the host tells and what it is told about constants. -/
def toldless (r : Recorder) : Recorder :=
  { r with typeSet := [], host := {}, stats := { r.stats with typeEntriesPurged := 0 } }

/-- **Entries that settle to the bytes of a chunk are read from it**, those of them that are no
flushpoints as such. -/
theorem Settles.read {o : RecorderOptions} {p : Published} {gained : Bytes}
    (h : Settles r [] r' [] { published := p, accepted := gained })
    (hp : p.Seals o Relation.Encodes) (hnone : r.entries [] = []) (hnone' : r'.entries [] = []) :
    (Entry.readAll gained).damage = none ∧
      (Entry.readAll gained).items.countP (!·.header.flushpoint) = p.last.length := by
  have hperm : (Entry.split gained).Perm p.entries := by
    refine List.perm_iff_count.2 fun x => ?_
    simpa [hnone, hnone'] using h.entries x
  obtain ⟨hdamage, hitems, -⟩ := Entry.read_of_views h.row fun e hmem => by
    obtain ⟨flushpoint, hseals⟩ := hp.of_mem (hperm.mem_iff.1 hmem)
    exact hseals.views
  refine ⟨hdamage, ?_⟩
  calc (Entry.readAll gained).items.countP (!·.header.flushpoint)
      = (Entry.readAll gained).items.countP (·.header.flushpoint == false) := by simp
    _ = (Entry.split gained).countP (Entry.flag? · == some false) := by
        rw [← Entry.countP_flag?, hitems]
    _ = p.entries.countP (Entry.flag? · == some false) := hperm.countP_eq _
    _ = p.last.length := hp.countP_entries.2

theorem settles_of_toldless_eq (h : r'.toldless = r.toldless) :
    Settles r [] r' [] {} ∧ r.CountsAll r' 0 := by
  have hpooled : r'.pooled = r.pooled := (congrArg pooled h :)
  have hsink : r'.sink = r.sink := (congrArg Recorder.sink h :)
  have hcut : r'.stats.flushes = r.stats.flushes := (congrArg (fun r => r.stats.flushes) h :)
  have hlast : r'.stats.checkpointsWritten = r.stats.checkpointsWritten :=
    (congrArg (fun r => r.stats.checkpointsWritten) h :)
  have hdropped : r'.stats.checkpointsDropped = r.stats.checkpointsDropped :=
    (congrArg (fun r => r.stats.checkpointsDropped) h :)
  refine ⟨.nothing (fun x => ?_) (by rw [chunk, chunk, hsink]) hcut hlast, .nothing hlast hdropped⟩
  rw [entries, entries, hpooled]

/-- **What is added to an idle recorder fills the next chunk**, together with the three checkpoints
of the rotation.  Before it and behind it the host may tell what it likes. -/
theorem Adds.fills {r₀ r₁ r₂ : Recorder} {n : Nat} {gained : Bytes} (h : r.Idle)
    (hfirst : r₀.toldless = r.toldless) (hadds : r₀.Adds n r₁)
    (hlast : r₂.toldless = r₁.toldless) (hc : r₂.Closes gained r') :
    r.Fills (n + 3) gained r' := by
  obtain ⟨p, htrades, hp⟩ := hadds.published
  obtain ⟨q, hsettles, hq⟩ := hc.settles
  obtain ⟨hsettles₀, hcounts₀⟩ := settles_of_toldless_eq hfirst
  obtain ⟨hsettles₂, hcounts₂⟩ := settles_of_toldless_eq hlast
  have hkept : ∀ {α : Type} (f : Recorder → α), (∀ r, f r.writerless = f r) →
      (∀ r, f r.toldless = f r) → f r₂ = f r := by
    intro α f hw ht
    rw [← ht r₂, hlast, ht, ← hw r₁, hadds.kept, hw, ← ht r₀, hfirst, ht]
  have hoptions : r₀.options = r.options := (congrArg Recorder.options hfirst :)
  have hepoch : r₂.epoch = r.epoch := by
    have h₀ : r₀.epoch = r.epoch := (congrArg Recorder.epoch hfirst :)
    have h₂ : r₂.epoch = r₁.epoch := (congrArg Recorder.epoch hlast :)
    rw [h₂, hadds.epoch, h₀]
  rw [hoptions] at hp
  rw [hkept Recorder.options (fun _ => rfl) fun _ => rfl] at hq
  have hall : Settles r [] r' [] { published := p ++ ({} ++ q), accepted := gained } :=
    hsettles₀.trans (htrades.settles.trans (hsettles₂.trans hsettles))
  obtain ⟨hdamage, hfound⟩ :=
    hall.read (hp.append (.append .nothing hq)) h.entries hc.idle.entries
  have hcounted : r.CountsAll r' (n + 3) := by
    have hcounted := hcounts₀.trans (hadds.counted.trans (hcounts₂.trans hc.counted))
    rwa [Nat.zero_add, Nat.zero_add] at hcounted
  refine
    { epoch := hc.epoch.trans (congrArg _ hepoch)
      chunk := hall.chunk
      counted := hcounted
      written := hc.written.trans
        (congrArg (· + _) (hkept (·.stats.bytesWritten) (fun _ => rfl) fun _ => rfl))
      rotations := hc.rotations.trans
        (congrArg (· + 1) (hkept (·.stats.rotations) (fun _ => rfl) fun _ => rfl))
      damage := hdamage
      checkpoints := fun hsame => ?_ }
  have hwritten := hall.last
  have hsum := hcounted.sum.1
  dsimp only at hwritten
  omega

end Recorder

end TraceRecorder
