/-
# When a checkpoint is dropped

A writer that can have no buffer drops its checkpoint, and that is counted.  Where segments are byte
strings that can stand in memory nothing else ever goes wrong with a writer, unless memory is
refused; and where the sizes of a pool are `Modest` it is not.

* `Sound.acquire_denied`, `Sound.renew_denied`, `Sound.flush_denied`: a lease meets no other fault
  than that there is no buffer to be had;
* `ends_start_scored`, `Holds.append_scored`: a writer has a buffer, or it is gone and was counted;
* `Sound.relationEntries_spans`: with a last entry a checkpoint of relations is all of them;
* `Sound.writeRelations_scored`: it is dropped and counted, or it has a last entry.

`score` are the counters in question.  Leases leave them alone.
-/
import TraceRecorder.Proofs.Recorder.Aborts
import TraceRecorder.Proofs.Recorder.Partition

namespace TraceRecorder

open Fallible (Ends Keeps)

namespace Recorder

/-! ## 1. The score -/

/-- How many checkpoints were dropped, and how many rotations there were. -/
def score (r : Recorder) : Nat × Nat := (r.stats.checkpointsDropped, r.stats.rotations)

def scoreDrop (r : Recorder) : Nat × Nat := (r.score.1 + 1, r.score.2)

theorem keeps_score {α : Type} {x : Action α} (h : Keeps leaseless x) : Keeps score x :=
  h.coarser fun _ => rfl

end Recorder

/-! ## 2. Exhaustion -/

/-- **The sizes of a pool's buffers are 32-bit words.** -/
def RecorderOptions.Modest (o : RecorderOptions) (kind : BufferKind) : Prop :=
  (o.space kind).maxBufferSize < UInt32.size

instance (o : RecorderOptions) (kind : BufferKind) : Decidable (o.Modest kind) :=
  inferInstanceAs (Decidable (_ < _))

theorem RecorderOptions.Modest.roomiest_lt {o : RecorderOptions} {kind : BufferKind}
    (h : o.Modest kind) : o.roomiest kind < UInt32.size :=
  Nat.lt_of_le_of_lt (Nat.min_le_left ..) h

/-- **Fewer relations than a word can count** stand in a buffer with modest sizes. -/
theorem RecorderOptions.Modest.length_lt {o : RecorderOptions} {kind : BufferKind}
    (h : o.Modest kind) {relations : List Relation}
    (hroom : Header.length + (relations.map Relation.encode).flatten.length ≤ o.roomiest kind) :
    relations.length < UInt32.size := by
  have hcount : 16 * relations.length ≤ (relations.map Relation.encode).flatten.length :=
    Relation.mul_length_le relations
  have hmost := h.roomiest_lt
  omega

/-- **A reader finds the relations** in an entry of them, if entries are shorter than 2 ^ 32. -/
theorem Entry.describes_piece {o : RecorderOptions} {kind : BufferKind}
    {relations : List Relation} (ho : o.Modest kind) (startTime duration : UInt64)
    (flushpoint : Bool)
    (hroom : Header.length + (relations.map Relation.encode).flatten.length ≤ o.roomiest kind) :
    Describes (piece (relations.map Relation.encode) startTime duration flushpoint) relations := by
  obtain ⟨hsize, hframe⟩ := Entry.frames_relations startTime duration flushpoint
    (Nat.lt_of_le_of_lt hroom ho.roomiest_lt)
  exact ⟨hsize, startTime, flushpoint, hframe⟩

/-- **Why there is no buffer of a kind to be had**: its pool is exhausted, or memory was refused to
one that may have more than 32-bit sizes. -/
def RecorderOptions.Denies (o : RecorderOptions) (kind : BufferKind) (fault : Fault) : Prop :=
  fault.isExhausted = true ∨ (fault.endsThread = true ∧ ¬ o.Modest kind)

theorem Memory.refusal?_eq_none (memory : Memory) {size : Nat} (h : size < UInt32.size) :
    refusal? memory.grants size = none := by
  have haddressable : UInt32.size ≤ addressable := by decide
  rw [refusal?, if_neg (by omega), if_pos (memory.modest size h)]

/-- **A pool with modest sizes has the memory for any buffer.** -/
theorem Space.Sound.acquire_granted {s : Space} {out : List Buffer} (h : s.Sound out)
    (hm : s.options.maxBufferSize < UInt32.size) (memory : Memory) (size : Nat) (e : Epoch)
    (owner : Owner) (m : MemoryFault) (s' : Space) :
    Fallible.runOn (Space.acquire memory.grants size e owner) s ≠ (.error (.memory m), s') := by
  intro hrun
  by_cases hmax : s.options.maxBufferSize < size
  · simp [Space.acquire, hmax] at hrun
  have hsize : size ≤ s.options.maxBufferSize := Nat.le_of_not_lt hmax
  have hgranted : Memory.refusal? memory.grants (max size s.options.bufferSize) = none :=
    memory.refusal?_eq_none (Nat.lt_of_le_of_lt (Nat.max_le.2 ⟨hsize, h.sizes⟩) hm)
  cases ht : s.free.takeFirst? (.atLeast size) with
  | some found =>
    obtain ⟨b, s₁, hfree, -⟩ := h.acquire_free memory.grants hsize ht e owner
    rw [hfree] at hrun
    cases hrun
  | none =>
    rcases h.makeRoom with ⟨hroom, -⟩ | ⟨s₁, hroom, -, hvis, -⟩ | hroom
    · simp [Space.acquire, Space.allocate, hmax, ht, hroom, hgranted] at hrun
    · have ho : s₁.options = s.options := Space.options_eq_of_visible_eq hvis
      simp [Space.acquire, Space.allocate, hmax, ht, hroom, ho, hgranted] at hrun
    · simp [Space.acquire, hmax, ht, hroom] at hrun

namespace Recorder

variable {r : Recorder} {out : List Buffer} {e : Epoch} {kind : BufferKind}

/-- A lease meets no other fault than that there is no buffer. -/
theorem Sound.lease_denied (h : r.Sound out e) (kind : BufferKind) (size : Nat)
    (thread : ThreadId) :
    Ends (Recorder.lease kind size e thread) r fun answer _ =>
      ∀ fault, answer = .error fault → r.options.Denies kind fault := by
  rcases (h.pool kind).acquire r.host.memory.grants size e (ownerFor kind thread) with
    ⟨b, how, s, hrun, -⟩ | ⟨fault, hrun, hf⟩ | ⟨m, s, hrun, -⟩
  · have hr : Fallible.runOn (Recorder.lease kind size e thread) r =
        (.ok b, (r.setSpace kind s).count (countLease how)) := by
      simp [Recorder.lease, onSpace, hrun, tally]
    exact Ends.of_run hr (by rintro _ ⟨⟩)
  · have hr : Fallible.runOn (Recorder.lease kind size e thread) r =
        (.error (.pool fault), r.setSpace kind (r.space kind)) := by
      simp [Recorder.lease, onSpace, hrun]
    refine Ends.of_run hr ?_
    rintro _ ⟨⟩
    exact .inl hf
  · have hr : Fallible.runOn (Recorder.lease kind size e thread) r =
        (.error (.pool (.memory m)), r.setSpace kind s) := by
      simp [Recorder.lease, onSpace, hrun]
    refine Ends.of_run hr ?_
    rintro _ ⟨⟩
    refine .inr ⟨rfl, fun hm => ?_⟩
    have hm : (r.space kind).options.maxBufferSize < UInt32.size := by
      rw [h.options]
      exact hm
    exact (h.pool kind).acquire_granted hm r.host.memory size e _ m s hrun

/-- **A writer's first lease** fails because the pool is exhausted, or for want of memory if its
sizes are not modest. -/
theorem Sound.acquire_denied (h : r.Sound out e) (kind : BufferKind) (thread : ThreadId)
    {duringDrain : Bool} (he : Fallible.runOn (leaseEpoch duringDrain) r = (.ok e, r))
    (size : Nat) :
    Ends (Recorder.acquire thread kind duringDrain size) r fun answer _ =>
      ∀ fault, answer = .error fault → r.options.Denies kind fault := by
  unfold Recorder.acquire
  refine Ends.after he ?_
  by_cases hk : kind = .threadLocal
  · rw [if_pos hk]
    refine (h.takeBinding thread).bind ?_ ?_
    · rintro o r₁ ⟨_, ⟨⟩, ht, -⟩
      rw [← ht.prepared.options]
      cases o with
      | none => exact ht.sound.lease_denied kind size thread
      | some b =>
        dsimp only
        split
        · exact Ends.of_run (Fallible.runOn_pure _ _) (by rintro _ ⟨⟩)
        · refine (Sound.handOff ht.sound).next fun r₂ ht₂ => ?_
          rw [← ht₂.prepared.options]
          exact ht₂.sound.lease_denied kind size thread
    · rintro _ _ ⟨_, hok, -⟩
      cases hok
  · rw [if_neg hk]
    exact h.lease_denied kind size thread

/-- **A buffer that is exchanged for a larger one has the room that was asked for**, or there is
none to be had. -/
theorem Sound.renew_denied {old : Buffer} (h : r.Sound (old :: out) e) (he : old.epoch = e)
    (kind : BufferKind) (thread : ThreadId) {size : Nat} (hs : size ≤ Memory.addressable) :
    Ends (Recorder.renew old thread size kind) r fun answer _ => match answer with
      | .ok b => size ≤ b.free
      | .error fault => r.options.Denies kind fault := by
  subst he
  have hlease := (h.lease kind (r.options.renewalRequest kind (old.needed size)) thread).and
    (h.lease_denied kind _ thread)
  -- What is needed is a word, since the pending bytes stand in a buffer.
  have hneeded : size + old.pending.length < UInt64.size := by
    have hin := h.fits.within
    have hgranted := h.fits.granted
    have haddressable : Memory.addressable + Memory.addressable < UInt64.size := by decide
    rw [Buffer.position] at hin
    omega
  refine (h.renews thread size kind).mono ?_
  intro answer r' hrenews
  cases hrenews with
  | refused hrun | ended hrun => exact (hlease.run_eq hrun).2 _ rfl
  | small hrun hcarry =>
    obtain ⟨⟨-, -, hb⟩, -⟩ := hlease.run_eq hrun
    have hsmall := Buffer.lt_of_carry?_eq_none hb.clean hcarry
    have hroom := hb.room_of_needed hneeded
    omega
  | grown hrun =>
    obtain ⟨⟨-, -, hb⟩, -⟩ := hlease.run_eq hrun
    have hroom := hb.room_of_needed hneeded
    dsimp only
    rw [hb.clean.free_of_pending]
    omega

/-- **A flush finds a fresh buffer**, or there is none to be had. -/
theorem Sound.flush_denied {old : Buffer} (h : r.Sound (old :: out) e) (he : old.epoch = e)
    (hw : Entry.Whole old.pending.bytes) (requested : Nat) (thread : ThreadId) :
    Ends (Recorder.flush old old.pending.length requested thread) r fun answer _ =>
      ∀ fault, answer = .error fault → r.options.Denies old.kind fault := by
  rw [flush_eq]
  refine (h.publish he hw).next fun r₁ ht => ?_
  rw [he, ← ht.prepared.options]
  exact ht.sound.lease_denied old.kind requested thread

end Recorder

namespace Writer

variable {w : Writer} {r : Recorder} {out : List Buffer} {b : Buffer} {e : Epoch}

/-! ## 3. Writers -/

/-- **The writer has a buffer and nothing was counted**, or it is gone and that was counted. -/
def Scored (w : Writer) (r r' : Recorder) : Prop :=
  (w.dropped = false ∧ r'.score = r.score) ∨ (w.Gone ∧ r'.score = r.scoreDrop)

theorem Scored.of_score_eq {r₁ r' : Recorder} (h : w.Scored r₁ r') (hs : r₁.score = r.score) :
    w.Scored r r' := by
  rw [Scored, Recorder.scoreDrop, hs] at h
  exact h

theorem Scored.score_of_gone {r' : Recorder} (h : w.Scored r r') (hw : w.Gone) :
    r'.score = r.scoreDrop := by
  rcases h with ⟨halive, -⟩ | ⟨-, hscore⟩
  · exact absurd halive hw.dropped_ne
  · exact hscore

theorem Scored.score_of_alive {r' : Recorder} (h : w.Scored r r') (hw : w.dropped = false) :
    r'.score = r.score := by
  rcases h with ⟨-, hscore⟩ | ⟨hgone, -⟩
  · exact hscore
  · exact absurd hw hgone.dropped_ne

theorem ends_drop_scored (w : Writer) (r : Recorder) :
    Ends w.drop r fun answer r' => answer = .ok w.gone ∧ r'.score = r.scoreDrop := by
  unfold drop
  refine Ends.after (Fallible.runOn_modify _ _) ?_
  refine Ends.attempt ((Recorder.keeps_score w.keeps_releaseBuffer).ends _) ?_
  rintro _ r' hscore
  exact Ends.of_run (Fallible.runOn_pure _ _) ⟨rfl, hscore⟩

/-- **Exhaustion drops the checkpoint**, and the call goes well all the same. -/
theorem ends_fail_scored (w : Writer) (r : Recorder) {fault : Fault}
    (hf : fault.isExhausted = true) :
    Ends (w.fail fault) r fun answer r' => answer = .ok (.ok (), w.gone) ∧
      r'.score = r.scoreDrop := by
  unfold fail
  rw [if_pos hf]
  exact (ends_drop_scored w r).next fun r' hscore =>
    Ends.of_run (Fallible.runOn_pure _ _) ⟨rfl, hscore⟩

theorem runOn_place {segment : Bytes} (hroom : segment.length ≤ b.free) :
    Fallible.runOn (w.place b segment) r = (.ok (.ok (), { w with
      buffer := some { b with pending := b.pending.append segment }
      segments := w.segments + 1 }), r) := by
  have happend : b.append? segment = some { b with pending := b.pending.append segment } := by
    rw [Buffer.append?, if_neg (Nat.not_lt.2 hroom)]
  rw [place, happend]
  rfl

/-- **A new writer has a buffer**, or its checkpoint is dropped, unless memory is refused. -/
theorem ends_start_scored (h : r.Sound out e) (ha : r.aborted = false) (thread : ThreadId)
    (kind : BufferKind) (duringDrain : Bool)
    (he : Fallible.runOn (Recorder.leaseEpoch duringDrain) r = (.ok e, r)) :
    Ends (start thread kind duringDrain) r fun answer r' =>
      (Refused answer ∧ ¬ r.options.Modest kind) ∨ ∃ w, answer = .ok w ∧ w.Scored r r' := by
  have hs := sound_entered h duringDrain
  have he' := leaseEpoch_entered he
  have hscored : (entered duringDrain r).score = r.score := by
    rw [Recorder.score, stats_entered, Recorder.score]
  have hacquire := (hs.acquire_denied kind thread he' Header.length).and
    ((Recorder.keeps_score (Recorder.keeps_acquire thread kind duringDrain Header.length)).ends _)
  refine (starting thread kind duringDrain r).mono ?_
  rintro answer r' hcase
  cases hcase with
  | aborted habort =>
    rw [ha] at habort
    cases habort
  | began _ hrun =>
    obtain ⟨-, hscore⟩ := hacquire.run_eq hrun
    exact .inr ⟨_, rfl, .inl ⟨rfl, hscore.trans hscored⟩⟩
  | refused _ hrun hends =>
    refine .inl ⟨⟨_, rfl, hends⟩, ?_⟩
    rcases (hacquire.run_eq hrun).1 _ rfl with hf | ⟨-, hlarge⟩
    · rw [Fault.not_isExhausted_of_endsThread hends] at hf
      cases hf
    · rwa [options_entered] at hlarge
  | dropped _ hrun _ hdrop =>
    obtain ⟨-, hscore⟩ := hacquire.run_eq hrun
    obtain ⟨rfl, hcounted⟩ := (ends_drop_scored _ _).run_eq hdrop
    exact .inr
      ⟨_, rfl, Scored.of_score_eq (.inr ⟨gone_gone _, hcounted⟩) (hscore.trans hscored)⟩

theorem Holds.flush_denied {run : List Bytes} (hw : w.Holds b run e) (h : r.Sound (b :: out) e)
    (segment : Bytes) :
    Ends (Recorder.flush (w.sealEntry b r.clock true) (w.entrySize b)
      (Header.length + segment.length) w.thread) r fun answer _ =>
      ∀ fault, answer = .error fault → r.options.Denies w.kind fault := by
  obtain ⟨hsealed, hbytes, hlen, hwhole⟩ := hw.sealed h r.clock true
  obtain ⟨hepoch, hbkind, -⟩ := w.sealEntry_frame b r.clock true
  rw [← hlen, ← hw.kind, ← hbkind]
  refine hsealed.sound.flush_denied (hepoch.trans hw.epoch) ?_ _ _
  rwa [hbytes]

/-- **A segment is taken**, or the checkpoint is dropped, unless memory is refused.  Either way the
drop counter says which: it goes up by one if the writer is gone afterwards, and not at all if the
writer has taken the segment. -/
theorem Holds.append_scored {run : List Bytes} (hw : w.Holds b run e) (h : r.Sound (b :: out) e)
    {segment : Bytes} (hs : segment.length ≤ Memory.addressable) :
    Ends (w.append segment) r fun answer r' => ∃ outcome w', answer = .ok (outcome, w') ∧
      ((Refused outcome ∧ ¬ r.options.Modest w.kind) ∨ (outcome = .ok () ∧ w'.Scored r r')) := by
  have hfailed : ∀ {w' : Writer} {r₁ : Recorder} {fault : Fault}, w'.buffer = none →
      r.options.Denies w.kind fault → r₁.score = r.score → Ends (w'.fail fault) r₁ fun answer r' =>
        ∃ outcome w', answer = .ok (outcome, w') ∧
          ((Refused outcome ∧ ¬ r.options.Modest w.kind) ∨
            (outcome = .ok () ∧ w'.Scored r r')) := by
    intro w' r₁ fault hb hf hscore
    rcases hf with hf | ⟨hf, hlarge⟩
    · refine (ends_fail_scored w' r₁ hf).mono ?_
      rintro _ r' ⟨rfl, hdrop⟩
      exact ⟨_, _, rfl, .inr ⟨rfl, Scored.of_score_eq (.inr ⟨gone_gone _, hdrop⟩) hscore⟩⟩
    · exact Ends.of_run (runOn_fail_of_endsThread hb hf) ⟨_, _, rfl, .inl ⟨⟨_, rfl, hf⟩, hlarge⟩⟩
  have hplaced : ∀ {w₁ : Writer} {b₁ : Buffer} {r₁ : Recorder}, segment.length ≤ b₁.free →
      w₁.dropped = false → r₁.score = r.score → Ends (w₁.place b₁ segment) r₁ fun answer r' =>
        ∃ outcome w', answer = .ok (outcome, w') ∧
          ((Refused outcome ∧ ¬ r.options.Modest w.kind) ∨
            (outcome = .ok () ∧ w'.Scored r r')) := by
    intro w₁ b₁ r₁ hroom halive hscore
    exact Ends.of_run (runOn_place hroom) ⟨_, _, rfl, .inr ⟨rfl, .inl ⟨halive, hscore⟩⟩⟩
  have hrenewed := (Recorder.keeps_score
    (Recorder.keeps_renew b w.thread segment.length w.kind)).ends r
  refine (hw.taking h segment).mono ?_
  intro answer r' htaking
  cases htaking with
  | fits hroom hplace =>
    exact (hplaced hroom hw.alive rfl).run_eq hplace
  | renewed hseg hrenew ht hnew hplace =>
    have hroom := (h.renew_denied hw.epoch w.kind w.thread hs).run_eq hrenew
    have hscore := hrenewed.run_eq hrenew
    exact (hplaced hroom hnew.alive hscore).run_eq hplace
  | exhausted hseg hrenew hfail =>
    have hfault := (h.renew_denied hw.epoch w.kind w.thread hs).run_eq hrenew
    have hscore := hrenewed.run_eq hrenew
    exact (hfailed rfl hfault hscore).run_eq hfail
  | cut hcut hflush ht hopen hroom hentries hplace =>
    have hscore := ((Recorder.keeps_score (Recorder.keeps_flush _ _ _ _)).ends r).run_eq hflush
    exact (hplaced hroom hopen.alive hscore).run_eq hplace
  | cutExhausted hcut hflush hfail =>
    have hfault := (hw.flush_denied h segment).run_eq hflush
    have hscore := ((Recorder.keeps_score (Recorder.keeps_flush _ _ _ _)).ends r).run_eq hflush
    exact (hfailed rfl (hfault _ rfl) hscore).run_eq hfail

theorem keeps_score_unpin (w : Writer) : Keeps Recorder.score w.unpin := by
  unfold unpin
  split
  · exact .update fun _ => rfl
  · exact .pure _

theorem keeps_score_finish (w : Writer) : Keeps Recorder.score w.finish := by
  have hclose : Keeps Recorder.score w.close := by
    unfold close
    split
    · exact .pure _
    · split
      · exact (Recorder.keeps_score w.keeps_releaseBuffer).bind fun _ => .pure _
      · have hcount : Keeps Recorder.score
            (Recorder.tally fun s => { s with checkpointsWritten := s.checkpointsWritten + 1 }) :=
          .update fun _ => rfl
        refine .get_bind fun r => hcount.bind (fun _ => ?_) r
        split
        · exact .pure _
        · exact (Recorder.keeps_score (keeps_releaseBuffer _)).bind fun _ => .pure _
  exact hclose.attempt.bind fun answer => w.keeps_score_unpin.bind fun _ => .settle answer

theorem keeps_score_abandon (w : Writer) : Keeps Recorder.score w.abandon :=
  (Recorder.keeps_score w.keeps_releaseBuffer).attempt.bind fun _ => w.keeps_score_unpin

/-! ## 4. Checkpoints of relations -/

/-- **One relation after the other** is taken, or the checkpoint is dropped, unless memory is
refused. -/
theorem TakingAll.scored {w' : Writer} {r' : Recorder} {relations : List Relation}
    {outcome : Except Fault Unit} {es : List Bytes} {run : List Bytes}
    (htaking : w.TakingAll relations r outcome w' r' es) (hw : w.Holds b run e)
    (h : r.Sound (b :: out) e)
    (hs : ∀ relation ∈ relations, relation.encode.length ≤ Memory.addressable) :
    (Refused outcome ∧ ¬ r.options.Modest w.kind) ∨ (outcome = .ok () ∧ w'.Scored r r') := by
  induction htaking generalizing b run with
  | nothing => exact .inr ⟨rfl, .inl ⟨hw.alive, rfl⟩⟩
  | failed hrun =>
    obtain ⟨_, _, ⟨⟩, htaken⟩ := (hw.append_scored h (hs _ List.mem_cons_self)).run_eq hrun
    exact htaken
  | @taken w w₁ w' relation rest r r₁ r' _ _ hrun hrest ih =>
    obtain ⟨⟨_, _, ⟨⟩, hid, hpost⟩, _, _, ⟨⟩, htaken⟩ := ((hw.append h relation.encode).and
      (hw.append_scored h (hs _ List.mem_cons_self))).run_eq hrun
    obtain ⟨ht, htook⟩ := hpost.resolve_left (not_refused_ok _)
    obtain ⟨-, hscored⟩ := htaken.resolve_left fun hr => not_refused_ok _ hr.1
    rcases hscored with ⟨halive, hscore⟩ | ⟨hgone, hscore⟩
    · have htook := htook.resolve_left fun hgone => hgone.dropped_ne halive
      obtain ⟨b₁, hb₁⟩ := htook.holds
      obtain ⟨-, hkind, -, -⟩ := identity_eq_iff.1 hid
      have hall := ih hb₁ (hb₁.sound ht.sound) fun x hx => hs x (List.mem_cons_of_mem _ hx)
      rw [ht.prepared.options, hkind] at hall
      exact hall.imp id fun ⟨hok, hscored⟩ => ⟨hok, hscored.of_score_eq hscore⟩
    · obtain ⟨rfl, rfl, rfl, -⟩ := hrest.of_gone hgone
      exact .inr ⟨rfl, .inr ⟨hgone, hscore⟩⟩

end Writer

namespace Recorder

variable {r : Recorder} {out : List Buffer} {e : Epoch} {kind : BufferKind}

/-- **The entries of a checkpoint that has a last one** are all of it, and a reader finds it where
the sizes are 32-bit words. -/
theorem Sound.relationEntries_spans (h : r.Sound out e) (thread : ThreadId)
    (hm : r.options.Modest kind) (duringDrain : Bool)
    (he : Fallible.runOn (leaseEpoch duringDrain) r = (.ok e, r)) (relations : List Relation)
    (hlast : (r.relationEntries thread kind duringDrain relations).last ≠ []) :
    Entry.Spans (r.relationEntries thread kind duringDrain relations).entries
      (relations.filter fun relation => !relation.isEmpty) := by
  obtain ⟨left, hcuttings, hends⟩ :=
    h.relationEntries_cuttings thread kind duringDrain he relations
  obtain ⟨hleft, hfits, duration, hpiece⟩ := hends.resolve_left hlast
  have hmost := hm.roomiest_lt
  obtain ⟨hsize, hframe⟩ :=
    Entry.frames_relations r.clock duration false (Nat.lt_of_le_of_lt hfits hmost)
  rw [Published.entries, hpiece]
  exact .inr ⟨r.clock, hcuttings.checkpoint hmost
    (.last hsize hframe (Entry.ne_nil_of_ofNat_length_ne_zero hleft))⟩

/-- **What becomes of a checkpoint of relations**, unless memory is refused: it is dropped, counted
and without a last entry, or it has one if there are relations.  A word has to be able to count
those that are left for it. -/
theorem Sound.writeRelations_score (h : r.Sound out e) (ha : r.aborted = false)
    (thread : ThreadId) (kind : BufferKind) (duringDrain : Bool)
    (he : Fallible.runOn (leaseEpoch duringDrain) r = (.ok e, r)) {relations : List Relation}
    (hs : ∀ relation ∈ relations, relation.encode.length ≤ Memory.addressable) :
    Ends (Recorder.writeRelations thread kind duringDrain relations) r fun answer r' =>
      (Refused answer ∧ ¬ r.options.Modest kind) ∨ ∃ n, answer = .ok n ∧
        ((n = 0 ∧ r'.score = r.scoreDrop ∧
            (relationEntries thread kind duringDrain relations r).last = []) ∨
          (r'.score = r.score ∧ (r.options.Modest kind ∨ relations.length < UInt32.size →
            (relationEntries thread kind duringDrain relations r).last = [] →
            relations.filter (fun relation => !relation.isEmpty) = []))) := by
  have hrows : ∀ relation ∈ relations.filter fun relation => !relation.isEmpty,
      relation.encode.length ≤ Memory.addressable :=
    fun relation hr => hs relation (List.mem_filter.1 hr).1
  have hbegan := (Writer.ends_start h thread kind duringDrain he).and
    (Writer.ends_start_scored h ha thread kind duringDrain he)
  refine (writing thread kind duringDrain relations r).mono ?_
  intro answer r' hwriting
  generalize relationEntries thread kind duringDrain relations r = published at hwriting ⊢
  cases hwriting with
  | nothing hnil => exact .inr ⟨0, rfl, .inr ⟨rfl, fun _ _ => hnil⟩⟩
  | refused hstart =>
    rcases (hbegan.run_eq hstart).2 with hrefused | ⟨_, ⟨⟩, -⟩
    exact .inl ⟨hrefused.1.throw, hrefused.2⟩
  | abandoned hne hstart htaking =>
    obtain ⟨⟨ht, hw, -, -, hid⟩, -⟩ := hbegan.run_eq hstart
    obtain ⟨-, hkind, -, -⟩ := Writer.identity_eq_iff.1 hid
    rcases hw with hgone | ⟨b, hb⟩
    · cases (htaking.of_gone hgone).1
    · rcases htaking.scored hb (hb.sound ht.sound) hrows with ⟨hrefused, hlarge⟩ | ⟨⟨⟩, -⟩
      rw [ht.prepared.options, Writer.options_entered, hkind] at hlarge
      exact .inl ⟨hrefused.throw, hlarge⟩
  | @ended _ w w' r₁ r₂ _ cut hne hstart htaking hfinish =>
    obtain ⟨⟨ht, hw, -, -, hid⟩, hstarted⟩ := hbegan.run_eq hstart
    obtain ⟨-, hkind, -, -⟩ := Writer.identity_eq_iff.1 hid
    obtain ⟨_, ⟨⟩, hstarted⟩ := hstarted.resolve_left fun hr => not_refused_ok _ hr.1
    have hkept : r'.score = r₂.score := (w'.keeps_score_finish.ends r₂).run_eq hfinish
    have hdropped : w'.Gone → r₂.score = r.scoreDrop → ∃ n, answer = .ok n ∧ n = 0 ∧
        r'.score = r.scoreDrop ∧ (w'.lastPiece? r₂.clock).toList = [] := by
      intro hgone hscore
      rw [hgone.lastPiece?_eq]
      rw [hgone.runOn_finish] at hfinish
      cases hfinish
      exact ⟨0, rfl, rfl, hkept.trans hscore, rfl⟩
    rcases hw with hgone | ⟨b, hb⟩
    · obtain ⟨-, rfl, rfl, -⟩ := htaking.of_gone hgone
      obtain ⟨n, hn, hall⟩ := hdropped hgone (hstarted.score_of_gone hgone)
      exact .inr ⟨n, hn, .inl hall⟩
    have hb : w.Holds b (([] : List Relation).map Relation.encode) e := hb
    have hs₁ := hb.sound ht.sound
    obtain ⟨-, hscored⟩ := (htaking.scored hb hs₁ hrows).resolve_left fun hr =>
      not_refused_ok _ hr.1
    rcases hscored.of_score_eq (hstarted.score_of_alive hb.alive) with
      ⟨halive, hscore⟩ | ⟨hgone, hscore⟩
    · -- A writer that took the relations has the last of them left.
      obtain ⟨left, hcuttings, hgoes⟩ := htaking.cuttings hb hs₁
      obtain ⟨⟨b', hb'⟩, -, hfits⟩ := (hgoes rfl).resolve_left fun hgone => hgone.dropped_ne halive
      obtain ⟨-, hpost⟩ := htaking.trades (.inr ⟨b, _, hb⟩) ht.sound
      obtain ⟨ht', -⟩ := hpost.resolve_left (not_refused_ok _)
      obtain ⟨n, _, rfl, -⟩ := (Writer.Valid.finish (.inr ⟨b', _, hb'⟩) ht'.sound).run_eq hfinish
      refine .inr ⟨n, rfl, .inr ⟨hkept.trans hscore, fun hfew hnil => ?_⟩⟩
      rw [ht.prepared.options, Writer.options_entered, hkind] at hfits
      have hcount : (left.map Relation.encode).length < UInt32.size := by
        rw [List.length_map]
        rcases hfew with hm | hfew
        · exact hm.length_lt hfits
        · exact Nat.lt_of_le_of_lt (Nat.le_trans hcuttings.left_suffix.length_le
            (List.length_filter_le _ relations)) hfew
      have hleft : left.map Relation.encode ≠ [] := by simpa using hcuttings.left_ne_nil hne
      rw [hb'.lastPiece?_eq, if_neg ((hb'.segments_eq_zero_iff hcount).not.2 hleft)] at hnil
      cases hnil
    · obtain ⟨n, hn, hall⟩ := hdropped hgone hscore
      exact .inr ⟨n, hn, .inl hall⟩

/-- **A checkpoint of relations is dropped and counted, or its entries are one checkpoint of the
relations that have pairs.**  It meets no fault. -/
theorem Sound.writeRelations_scored (h : r.Sound out e) (ha : r.aborted = false)
    (thread : ThreadId) (hm : r.options.Modest kind) (duringDrain : Bool)
    (he : Fallible.runOn (leaseEpoch duringDrain) r = (.ok e, r)) {relations : List Relation}
    (hs : ∀ relation ∈ relations, relation.encode.length ≤ Memory.addressable) :
    Ends (Recorder.writeRelations thread kind duringDrain relations) r fun answer r' =>
      (∃ n, answer = .ok n) ∧
      Trades r out r' out e (relationEntries thread kind duringDrain relations r) ∧
      (r'.score = r.scoreDrop ∨ (r'.score = r.score ∧
        Entry.Spans (relationEntries thread kind duringDrain relations r).entries
          (relations.filter fun relation => !relation.isEmpty))) := by
  refine ((h.writeRelations thread kind duringDrain he relations).and
    (h.writeRelations_score ha thread kind duringDrain he hs)).mono ?_
  rintro answer r' ⟨htrades, hscored⟩
  obtain ⟨n, rfl, hgoes⟩ := hscored.resolve_left fun hr => hr.2 hm
  refine ⟨⟨n, rfl⟩, htrades.resolve_left (not_refused_ok n), ?_⟩
  rcases hgoes with ⟨-, hscore, -⟩ | ⟨hscore, hlast⟩
  · exact .inl hscore
  refine .inr ⟨hscore, ?_⟩
  by_cases hnil : (relationEntries thread kind duringDrain relations r).last = []
  · rw [relationEntries, hlast (.inl hm) hnil]
    exact .inl ⟨rfl, rfl⟩
  · exact h.relationEntries_spans thread hm duringDrain he relations hnil

end Recorder

end TraceRecorder
