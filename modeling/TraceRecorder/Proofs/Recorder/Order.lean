/-
# Writers keep the order of their lane

What a writer holds stands behind the queue of its lane.  Entries that it cuts off are queued behind
what it holds, and its last entry is queued or kept behind that (`Line.Closes`), so no writer
overtakes itself:

* `ends_start_shifts`: what the thread kept is held now, or it is queued;
* `Holds.append_shifts`: a cut queues all that the writer holds, the new entry last;
* `Valid.finish_shifts`: the end queues or keeps all that is held, the last entry behind it.

Checkpoints that a recorder writes itself begin and end in one operation, so their entries come
behind all that waits on their lane (`Sound.writeRelations_shifts`).
-/
import TraceRecorder.Proofs.Recorder.Lanes

namespace TraceRecorder

open Fallible (Ends Keeps)

/-! ## 1. Lines -/

namespace Line

variable {l l' : Line} {es held cut : List Bytes}

def all (l : Line) : List Bytes := l.queue ++ l.kept

@[simp] theorem all_yield (l : Line) : l.yield.all = l.all := List.append_nil _

theorem queue_prefix_push (l : Line) (es : List Bytes) : l.queue <+: (l.push es).queue :=
  List.prefix_append _ _

theorem queue_prefix_yield (l : Line) : l.queue <+: l.yield.queue := List.prefix_append _ _

theorem eq_push_of_all_eq (hk : l.kept = []) (hk' : l'.kept = []) (h : l'.all = l.all ++ es) :
    l' = l.push es := by
  rw [all, all, hk, hk', List.append_nil, List.append_nil] at h
  exact Line.ext h (hk'.trans hk.symm)

/-- **A writer goes on**: it holds what it held, or all of that is queued, the new entry last. -/
inductive Goes (l : Line) (held : List Bytes) : List Bytes → Line → List Bytes → Prop
  | on : l.Goes held [] l held
  | queued (cut : List Bytes) : l.Goes held cut (l.push (held ++ cut)) []

theorem Begins.queue (h : l.Begins l' held) : l.queue <+: l'.queue := by
  cases h with
  | again => exact List.prefix_refl _
  | fresh => exact l.queue_prefix_yield

theorem Begins.all (h : l.Begins l' held) : l'.kept = [] ∧ l'.queue ++ held = l.all := by
  cases h with
  | again => exact ⟨rfl, rfl⟩
  | fresh => exact ⟨rfl, List.append_nil _⟩

theorem Goes.queue (h : l.Goes held cut l' es) : l.queue <+: l'.queue := by
  cases h with
  | on => exact List.prefix_refl _
  | queued => exact l.queue_prefix_push _

theorem Goes.kept (h : l.Goes held cut l' es) : l'.kept = l.kept := by
  cases h <;> rfl

theorem Goes.all (h : l.Goes held cut l' es) :
    l'.queue ++ es = l.queue ++ held ++ cut := by
  cases h with
  | on => rw [List.append_nil]
  | queued => rw [push, List.append_nil, List.append_assoc]

theorem Closes.queue (h : l.Closes es l') : l.queue <+: l'.queue := by
  cases h with
  | full => exact l.queue_prefix_push _
  | bound => exact List.prefix_append _ _
  | both => exact (l.queue_prefix_push _).trans (queue_prefix_yield _)

/-- **If nothing else is kept, what was held comes last.** -/
theorem Closes.all (h : l.Closes es l') (hk : es = [] ∨ l.kept = []) : l'.all = l.all ++ es := by
  have hpush : (l.push es).all = l.all ++ es := by
    rcases hk with rfl | hk
    · rw [push_nil, List.append_nil]
    · rw [Line.all, Line.all, push, hk, List.append_nil, List.append_nil]
  cases h with
  | full => exact hpush
  | bound => rfl
  | both => rw [all_yield, hpush]

theorem Closes.of_push (h : (l.push es).Closes [] l') : l.Closes es l' := by
  cases h with
  | full =>
    rw [push_nil]
    exact .full
  | bound => exact .both
  | both =>
    rw [push_nil]
    exact .both

end Line

namespace Writer

def lane (w : Writer) : Lane := .of w.kind w.thread

/-- The entries in the buffer of a writer. -/
def held (w : Writer) : List Bytes := w.buffer.toList.flatMap Buffer.entries

theorem held_of_buffer {w : Writer} {b : Buffer} (h : w.buffer = some b) : w.held = b.entries := by
  simp [held, h]

theorem held_of_buffer_none {w : Writer} (h : w.buffer = none) : w.held = [] := by
  rw [held, h]
  rfl

theorem lane_eq_of_identity_eq {w w' : Writer} (h : w'.identity = w.identity) :
    w'.lane = w.lane := by
  obtain ⟨hthread, hkind, -⟩ := identity_eq_iff.1 h
  rw [lane, hkind, hthread, lane]

variable {w : Writer} {r : Recorder} {out : List Buffer} {b : Buffer} {e : Epoch}
  {run : List Bytes}

theorem Holds.on (hw : w.Holds b run e) : b.On w.lane := Buffer.on_of hw.kind (hw.kind ▸ hw.owner)

theorem held_openEntry (w : Writer) (b : Buffer) : (w.openEntry b).held = b.entries := by
  have hbuffer : (w.openEntry b).buffer =
      some ((b.append? (List.replicate Header.length 0)).getD b) := rfl
  rw [held_of_buffer hbuffer]
  cases happend : b.append? (List.replicate Header.length 0) with
  | none => rw [Option.getD_none]
  | some grown =>
    unfold Buffer.append? at happend
    split at happend
    · cases happend
    · obtain rfl := Option.some.inj happend
      rw [Option.getD_some, Buffer.entries, Buffer.entries]

/-! ## 2. Giving up -/

theorem ends_drop_bare (hb : w.buffer = none) (r : Recorder) :
    Ends w.drop r fun answer r' => answer = .ok w.gone ∧ r'.visible = r.visible := by
  unfold drop releaseBuffer
  rw [hb]
  exact ⟨rfl, Recorder.visible_count r _⟩

theorem ends_fail_bare_visible (hb : w.buffer = none) (fault : Fault) (r : Recorder) :
    Ends (w.fail fault) r fun answer r' =>
      (∃ outcome, answer = .ok (outcome, w.gone)) ∧ r'.visible = r.visible := by
  unfold fail
  split
  · exact (ends_drop_bare hb r).next fun r' hv =>
      Ends.of_run (Fallible.runOn_pure _ _) ⟨⟨_, rfl⟩, hv⟩
  · unfold releaseBuffer
    rw [hb]
    exact ⟨⟨_, rfl⟩, rfl⟩

/-- **What a writer gives back is queued, or kept.** -/
theorem Valid.releaseBuffer_shifts (hw : w.Valid e) (h : r.Sound (w.buffer.toList ++ out) e) :
    Ends w.releaseBuffer r fun _ r' =>
      ∃ l, (r.line w.lane).Closes w.held l ∧ r.Shifts w.lane l r' := by
  unfold releaseBuffer
  rcases hw with hgone | ⟨b, run, hw⟩
  · rw [hgone.buffer, held_of_buffer_none hgone.buffer]
    refine Ends.of_run (Fallible.runOn_pure _ _) ⟨_, .full, ?_⟩
    rw [Line.push_nil]
    exact .refl r _
  · rw [hw.buffer] at h ⊢
    rw [held_of_buffer hw.buffer, lane, ← hw.kind]
    exact Recorder.Sound.release_shifts h hw.owner

/-- A writer with a buffer meets a fault. -/
theorem Holds.fail_shifts (hw : w.Holds b run e) (h : r.Sound (b :: out) e) (fault : Fault) :
    Ends (w.fail fault) r fun answer r' => (∃ outcome, answer = .ok (outcome, w.gone)) ∧
      ∃ l, (r.line w.lane).Closes w.held l ∧ r.Shifts w.lane l r' := by
  have hv : w.Valid e := .inr ⟨b, run, hw⟩
  have hs : r.Sound (w.buffer.toList ++ out) e := by rwa [hw.buffer]
  unfold fail
  split
  · have hdrop : Ends w.drop r fun answer r' => answer = .ok w.gone ∧
        ∃ l, (r.line w.lane).Closes w.held l ∧ r.Shifts w.lane l r' := by
      have hcount := hs.count
        (f := fun s => { s with checkpointsDropped := s.checkpointsDropped + 1 }) rfl rfl
      have hsame := Recorder.Shifts.of_visible_eq (Recorder.visible_count r
        fun s => { s with checkpointsDropped := s.checkpointsDropped + 1 }) w.lane
      unfold drop
      refine Ends.after (Fallible.runOn_modify _ _) ?_
      refine Ends.attempt (hv.releaseBuffer_shifts hcount) ?_
      rintro _ r' ⟨l, hcloses, hshifts⟩
      rw [hsame.line] at hcloses
      exact Ends.of_run (Fallible.runOn_pure _ _) ⟨rfl, l, hcloses, hsame.trans hshifts⟩
    exact hdrop.next fun r' hl => Ends.of_run (Fallible.runOn_pure _ _) ⟨⟨_, rfl⟩, hl⟩
  · refine Ends.attempt (hv.releaseBuffer_shifts hs) ?_
    rintro _ r' hl
    exact Ends.of_run (Fallible.runOn_pure _ _) ⟨⟨_, rfl⟩, hl⟩

/-! ## 3. Beginnings -/

/-- **A writer that begins** takes along what its thread kept, or leaves it in the queue. -/
theorem ends_start_shifts (h : r.Sound out e) (thread : ThreadId) (kind : BufferKind)
    (duringDrain : Bool) (he : Fallible.runOn (Recorder.leaseEpoch duringDrain) r = (.ok e, r)) :
    Ends (start thread kind duringDrain) r fun answer r' => ∀ w, answer = .ok w →
      ∃ l, r.Shifts (.of kind thread) l r' ∧
        ((w.Gone ∧ l.all = (r.line (.of kind thread)).all ∧
            (r.line (.of kind thread)).queue <+: l.queue) ∨
          (w.dropped = false ∧ (r.line (.of kind thread)).Begins l w.held)) := by
  have hs := sound_entered h duringDrain
  have he' := leaseEpoch_entered he
  have hvisible : (entered duringDrain r).visible = r.visible := by
    cases duringDrain
    · exact Recorder.visible_moveEpoch r _
    · rfl
  have hentered := Recorder.Shifts.of_visible_eq hvisible (.of kind thread)
  have hline := hentered.line
  have hacquire := hs.acquire_shifts thread kind he' Header.length
  rw [hline] at hacquire
  refine (starting thread kind duringDrain r).mono ?_
  rintro answer r' hcase w rfl
  cases hcase with
  | aborted ha => exact ⟨_, hentered, .inl ⟨gone_gone _, rfl, List.prefix_refl _⟩⟩
  | began ha hrun =>
    obtain ⟨l, hbegins, hshifts⟩ := hacquire.run_eq hrun
    refine ⟨l, hentered.trans hshifts, .inr ⟨rfl, ?_⟩⟩
    rw [held_openEntry]
    exact hbegins
  | dropped ha hrun hf hdrop =>
    have hyield := hacquire.run_eq hrun
    have hbare := ends_drop_bare (w := newborn thread kind duringDrain r) rfl
    obtain ⟨⟨⟩, hv⟩ := (hbare _).run_eq hdrop
    refine ⟨_, hentered.trans (hyield.alike hv), .inl ⟨gone_gone _, ?_, ?_⟩⟩
    · exact Line.all_yield _
    · exact Line.queue_prefix_yield _

/-! ## 4. Segments -/

/-- **What one more segment does to the lane of a writer**: the writer goes on, or what it held is
queued or kept and it is gone. -/
def Advances (w : Writer) (cut : List Bytes) (r : Recorder) (w' : Writer) (r' : Recorder) : Prop :=
  ∃ l, r.Shifts w.lane l r' ∧
    ((w'.dropped = false ∧ (r.line w.lane).Goes w.held cut l w'.held) ∨
      (w'.Gone ∧ (r.line w.lane).Closes (w.held ++ cut) l))

/-- A segment is placed, or the writer is gone. -/
theorem Holds.place_shifts (hw : w.Holds b run e) (h : r.Sound (b :: out) e) (segment : Bytes) :
    Ends (w.place b segment) r fun answer r' => ∀ outcome w', answer = .ok (outcome, w') →
      ∃ l, r.Shifts w.lane l r' ∧
        ((w'.dropped = false ∧ l = r.line w.lane ∧ w'.held = w.held) ∨
          (w'.Gone ∧ (r.line w.lane).Closes w.held l)) := by
  unfold Writer.place
  cases happend : b.append? segment with
  | none =>
    have hself : ({ w with buffer := some b } : Writer).Holds b run e := ⟨rfl, hw.alive, hw.start,
      hw.segments, hw.pending, hw.epoch, hw.owner, hw.kind⟩
    have hheld : w.held = ({ w with buffer := some b } : Writer).held := by
      rw [held_of_buffer hw.buffer, held_of_buffer rfl]
    refine (hself.fail_shifts h _).mono ?_
    rintro _ r' ⟨⟨_, rfl⟩, l, hcloses, hshifts⟩ _ _ ⟨⟩
    exact ⟨l, hshifts, .inr ⟨gone_gone _, hheld ▸ hcloses⟩⟩
  | some grown =>
    unfold Buffer.append? at happend
    split at happend
    · cases happend
    · obtain rfl := Option.some.inj happend
      refine Ends.of_run (Fallible.runOn_pure _ _) ?_
      rintro _ _ ⟨⟩
      refine ⟨_, .refl r _, .inl ⟨hw.alive, rfl, ?_⟩⟩
      rw [held_of_buffer hw.buffer, held_of_buffer rfl, Buffer.entries, Buffer.entries]

/-- A buffer was exchanged or flushed, and the segment goes into the new one. -/
theorem Holds.advances_of_place {w₁ : Writer} {cut : List Bytes} {r₁ : Recorder}
    (hw : w₁.Holds b run e) (h : r₁.Sound (b :: out) e) (segment : Bytes) (hlane : w₁.lane = w.lane)
    (hb : b.entries = []) (hr : r.Shifts w.lane ((r.line w.lane).push (w.held ++ cut)) r₁) :
    Ends (w₁.place b segment) r₁ fun answer r' => ∀ outcome w', answer = .ok (outcome, w') →
      Refused outcome ∨ w.Advances cut r w' r' := by
  have hheld : w₁.held = [] := (held_of_buffer hw.buffer).trans hb
  refine (hw.place_shifts h segment).mono ?_
  rintro answer r' hpost outcome w' rfl
  obtain ⟨l, hshifts, hl⟩ := hpost outcome w' rfl
  rw [hlane, hheld] at hl
  rw [hlane] at hshifts
  refine .inr ⟨l, hr.trans hshifts, ?_⟩
  rcases hl with ⟨halive, rfl, hheld'⟩ | ⟨hgone, hcloses⟩
  · refine .inl ⟨halive, ?_⟩
    rw [hr.line, hheld']
    exact .queued cut
  · rw [hr.line] at hcloses
    exact .inr ⟨hgone, hcloses.of_push⟩

/-- **A cut queues what is held**, and the entry that is cut off behind it. -/
theorem Holds.flush_shifts (hw : w.Holds b run e) (h : r.Sound (b :: out) e) {segment : Bytes}
    (hcut : w.Cuts b segment) :
    Ends (Recorder.flush (w.sealEntry b r.clock true) (w.entrySize b)
        (Header.length + segment.length) w.thread) r fun answer r' =>
      r.Shifts w.lane ((r.line w.lane).push (w.held ++ (w.cutOff? segment r.clock).toList)) r' ∧
        ∀ b, answer = .ok b → b.entries = [] := by
  obtain ⟨hsealed, hbytes, hlen, hwhole⟩ := hw.sealed h r.clock true
  obtain ⟨hepoch, hbkind, hbowner⟩ := w.sealEntry_frame b r.clock true
  have hon : (w.sealEntry b r.clock true).On w.lane :=
    Buffer.on_of (hbkind.trans hw.kind) fun hl => hbowner.trans (hw.owner (hbkind.symm.trans hl))
  have hentries : (w.sealEntry b r.clock true).entries = w.held := by
    rw [hw.sealEntry_eq, held_of_buffer hw.buffer, Buffer.entries, Buffer.entries]
  have hflush := hsealed.sound.flush_shifts (hepoch.trans hw.epoch) (by rwa [hbytes]) hon
    (Header.length + segment.length) w.thread
  rw [hw.cutOff?_eq, if_pos hcut]
  rwa [hbytes, hlen, hentries] at hflush

/-- **One more segment** does not overtake what is held or queued.  If the writer flushes first, the
entry that is cut off is queued behind what its buffer held; and the segment is held behind both. -/
theorem Holds.append_shifts (hw : w.Holds b run e) (h : r.Sound (b :: out) e) (segment : Bytes) :
    Ends (w.append segment) r fun answer r' => ∀ outcome w', answer = .ok (outcome, w') →
      Refused outcome ∨ w.Advances (w.cutOff? segment r.clock).toList r w' r' := by
  have hheld : w.held = b.entries := held_of_buffer hw.buffer
  -- No buffer could be had: what was held and cut off is queued, and the writer is gone.
  have hdropped : ∀ {w' : Writer} {r₁ : Recorder} {cut : List Bytes} (fault : Fault),
      w'.buffer = none → r.Shifts w.lane ((r.line w.lane).push (w.held ++ cut)) r₁ →
      Ends (w'.fail fault) r₁ fun answer r' => ∀ outcome w'', answer = .ok (outcome, w'') →
        Refused outcome ∨ w.Advances cut r w'' r' := by
    intro w' r₁ cut fault hb hshifts
    refine (ends_fail_bare_visible hb fault r₁).mono ?_
    rintro _ r' ⟨⟨_, rfl⟩, hv⟩ _ _ ⟨⟩
    exact .inr ⟨_, hshifts.alike hv, .inr ⟨gone_gone _, .full⟩⟩
  have hnone : ¬ w.Cuts b segment → w.cutOff? segment r.clock = none := by
    intro hcut
    rw [hw.cutOff?_eq, if_neg hcut]
  refine (hw.taking h segment).mono ?_
  intro answer r' htaking
  cases htaking with
  | fits hroom hplace =>
    rw [hnone fun hc => Nat.not_lt.2 hroom hc.2]
    rintro outcome w' rfl
    obtain ⟨l, hshifts, hl⟩ := (hw.place_shifts h segment).run_eq hplace outcome w' rfl
    refine .inr ⟨l, hshifts, ?_⟩
    rcases hl with ⟨halive, rfl, hheld'⟩ | ⟨hgone, hcloses⟩
    · refine .inl ⟨halive, ?_⟩
      rw [hheld']
      exact .on
    · exact .inr ⟨hgone, (List.append_nil w.held).symm ▸ hcloses⟩
  | renewed hseg hrenew ht hnew hplace =>
    -- The entry moved to a larger buffer, and what was held stayed behind.
    rw [hnone fun hc => hc.1 hseg]
    obtain ⟨hshifts, hempty⟩ := ((h.renew_shifts hw.epoch hw.on segment.length).run_eq
      hrenew).resolve_left (not_refused_ok _)
    rw [← hheld, ← List.append_nil w.held] at hshifts
    exact (hnew.advances_of_place (w := w) ht.sound segment rfl (hempty _ rfl) hshifts).run_eq
      hplace
  | exhausted hseg hrenew hfail =>
    rw [hnone fun hc => hc.1 hseg]
    rcases (h.renew_shifts hw.epoch hw.on segment.length).run_eq hrenew with
      ⟨_, ⟨⟩, hf⟩ | ⟨hshifts, -⟩
    · have hrefused := (runOn_fail_of_endsThread rfl hf).symm.trans hfail
      rintro _ _ rfl
      cases hrefused
      exact .inl ⟨_, rfl, hf⟩
    · rw [← hheld, ← List.append_nil w.held] at hshifts
      exact (hdropped _ rfl hshifts).run_eq hfail
  | cut hcut hflush ht hopen hroom hentries hplace =>
    -- What was held is queued, and the entry that is cut off behind it.
    obtain ⟨hshifts, hempty⟩ := (hw.flush_shifts h hcut).run_eq hflush
    exact (hopen.advances_of_place (w := w) ht.sound segment rfl
      (hentries.trans (hempty _ rfl)) hshifts).run_eq hplace
  | cutExhausted hcut hflush hfail =>
    obtain ⟨hshifts, -⟩ := (hw.flush_shifts h hcut).run_eq hflush
    exact (hdropped _ rfl hshifts).run_eq hfail

/-! ## 5. Ends -/

theorem visible_left (w : Writer) (r : Recorder) : (w.left r).visible = r.visible := by
  unfold left
  split
  · exact Recorder.visible_moveEpoch r _
  · rfl

/-- A checkpoint ends: what was held and its last entry are queued, or kept. -/
theorem Holds.close_shifts (hw : w.Holds b run e) (h : r.Sound (b :: out) e) :
    Ends w.close r fun _ r' => ∃ l, (r.line w.lane).Closes
      (w.held ++ (w.lastPiece? r.clock).toList) l ∧ r.Shifts w.lane l r' := by
  have hs : r.Sound (w.buffer.toList ++ out) e := by rwa [hw.buffer]
  have hheld : w.held = b.entries := held_of_buffer hw.buffer
  rw [hw.lastPiece?_eq]
  unfold Writer.close
  rw [if_neg (by simp [hw.alive])]
  by_cases hseg : w.segments = 0
  · rw [if_pos hseg, if_pos hseg, Option.toList_none, List.append_nil]
    refine (Valid.releaseBuffer_shifts (.inr ⟨b, run, hw⟩) hs).bind ?_ ?_
    · rintro _ r' hl
      exact Ends.of_run (Fallible.runOn_pure _ _) hl
    · rintro _ r' hl
      exact hl
  · rw [if_neg hseg, if_neg hseg]
    refine Ends.after (Fallible.runOn_get r) (Ends.after (Fallible.runOn_modify _ _) ?_)
    obtain ⟨hsealed, hbytes, -, hwhole⟩ := hw.sealed h r.clock false
    obtain ⟨hepoch, hbkind, hbowner⟩ := w.sealEntry_frame b r.clock false
    have hwhole : Entry.Whole (w.sealEntry b r.clock false).pending.bytes := by rwa [hbytes]
    obtain ⟨hs', -⟩ := hsealed.sound.commitAll (hepoch.trans hw.epoch) hwhole
    have hentries := hsealed.sound.entries_commitAll hwhole
    have hsame : (w.sealEntry b r.clock false).entries = b.entries := by
      rw [hw.sealEntry_eq, Buffer.entries, Buffer.entries]
    rw [hbytes, hsame, ← hheld] at hentries
    have hcount := hs'.count
      (f := fun s => { s with checkpointsWritten := s.checkpointsWritten + 1 }) rfl rfl
    have hcounted := Recorder.Shifts.of_visible_eq (Recorder.visible_count r
      fun s => { s with checkpointsWritten := s.checkpointsWritten + 1 }) w.lane
    split
    · rename_i hn
      rw [hw.buffer] at hn
      cases hn
    · rename_i held hb
      obtain rfl : b = held := Option.some.inj (hw.buffer.symm.trans hb)
      dsimp only
      generalize w.sealEntry b r.clock false = filled at *
      have howner : filled.commitAll.kind = .threadLocal →
          filled.commitAll.owner = .thread w.thread :=
        fun hl => hbowner.trans (hw.owner (hbkind.symm.trans hl))
      have hlane : Lane.of filled.commitAll.kind w.thread = w.lane := by
        rw [lane, ← hw.kind, ← hbkind]
        rfl
      have hrelease := Recorder.Sound.release_shifts hcount howner
      rw [hlane, hcounted.line, hentries] at hrelease
      refine hrelease.bind ?_ ?_
      · rintro _ r' ⟨l, hcloses, hshifts⟩
        exact Ends.of_run (Fallible.runOn_pure _ _) ⟨l, hcloses, hcounted.trans hshifts⟩
      · rintro _ r' ⟨l, hcloses, hshifts⟩
        exact ⟨l, hcloses, hcounted.trans hshifts⟩

/-- **The end of a writer** queues or keeps what it held, and its last entry behind that. -/
theorem Valid.finish_shifts (hw : w.Valid e) (h : r.Sound (w.buffer.toList ++ out) e) :
    Ends w.finish r fun _ r' => ∃ l, (r.line w.lane).Closes
      (w.held ++ (w.lastPiece? r.clock).toList) l ∧ r.Shifts w.lane l r' := by
  have hclose : Ends w.close r fun _ r' => ∃ l, (r.line w.lane).Closes
      (w.held ++ (w.lastPiece? r.clock).toList) l ∧ r.Shifts w.lane l r' := by
    rcases hw with hgone | ⟨b, run, hw⟩
    · rw [hgone.lastPiece?_eq, held_of_buffer_none hgone.buffer]
      refine Ends.of_run hgone.runOn_close ⟨_, .full, ?_⟩
      rw [Option.toList_none, List.append_nil, Line.push_nil]
      exact .refl r _
    · rw [hw.buffer] at h
      exact hw.close_shifts h
  unfold Writer.finish
  refine Ends.attempt hclose ?_
  rintro answer r₁ ⟨l, hcloses, hshifts⟩
  refine Ends.after (w.runOn_unpin r₁) (Ends.of_run (Fallible.runOn_settle _ _) ?_)
  exact ⟨l, hcloses, hshifts.alike (visible_left w r₁)⟩

theorem Valid.abandon_shifts (hw : w.Valid e) (h : r.Sound (w.buffer.toList ++ out) e) :
    Ends w.abandon r fun _ r' =>
      ∃ l, (r.line w.lane).Closes w.held l ∧ r.Shifts w.lane l r' := by
  unfold Writer.abandon
  refine Ends.attempt (hw.releaseBuffer_shifts h) ?_
  rintro _ r₁ ⟨l, hcloses, hshifts⟩
  exact Ends.of_run (w.runOn_unpin r₁) ⟨l, hcloses, hshifts.alike (visible_left w r₁)⟩

/-! ## 6. Checkpoints of relations -/

/-- **Entries come behind all that waits on the lane of a writer**, and it goes on where nothing is
kept. -/
structure Follows (w : Writer) (es : List Bytes) (r : Recorder) (w' : Writer) (r' : Recorder) :
    Prop where
  shifts : r.Shifts w.lane (r'.line w.lane) r'
  queue : (r.line w.lane).queue <+: (r'.line w.lane).queue
  kept : w'.Gone ∨ (r'.line w.lane).kept = []
  all : (r'.line w.lane).all ++ w'.held = (r.line w.lane).all ++ w.held ++ es

namespace Follows

variable {w' w'' : Writer} {r' r'' : Recorder} {es es' : List Bytes}

theorem refl (hk : w.Gone ∨ (r.line w.lane).kept = []) : w.Follows [] r w r :=
  ⟨.refl r _, List.prefix_refl _, hk, (List.append_nil _).symm⟩

/-- **Later entries come behind earlier ones.** -/
theorem trans (h : w.Follows es r w' r') (h' : w'.Follows es' r' w'' r'') (hl : w'.lane = w.lane) :
    w.Follows (es ++ es') r w'' r'' := by
  obtain ⟨hshifts, hqueue, hkept, hall⟩ := h'
  rw [hl] at hshifts hqueue hkept hall
  refine ⟨h.shifts.trans hshifts, h.queue.trans hqueue, hkept, ?_⟩
  rw [hall, h.all, List.append_assoc]

end Follows

theorem Valid.append_follows (hw : w.Valid e) (h : r.Sound (w.buffer.toList ++ out) e)
    (hk : w.Gone ∨ (r.line w.lane).kept = []) (segment : Bytes) :
    Ends (w.append segment) r fun answer r' => ∀ outcome w', answer = .ok (outcome, w') →
      Refused outcome ∨ w.Follows (w.cutOff? segment r.clock).toList r w' r' := by
  rcases hw with hgone | ⟨b, run, hw⟩
  · rw [hgone.cutOff?_eq]
    refine Ends.of_run (hgone.runOn_append segment) ?_
    rintro _ _ ⟨⟩
    exact .inr (.refl hk)
  · have hk : (r.line w.lane).kept = [] :=
      hk.resolve_left fun hgone => hgone.dropped_ne hw.alive
    rw [hw.buffer] at h
    refine (hw.append_shifts h segment).mono ?_
    rintro answer r' hpost outcome w' rfl
    refine (hpost outcome w' rfl).imp id ?_
    rintro ⟨l, hl, ⟨-, hgoes⟩ | ⟨hgone, hcloses⟩⟩
    · obtain rfl := hl.line
      have hkept := hgoes.kept.trans hk
      refine ⟨hl, hgoes.queue, .inr hkept, ?_⟩
      rw [Line.all, hkept, List.append_nil, hgoes.all, Line.all, hk, List.append_nil]
    · obtain rfl := hl.line
      refine ⟨hl, hcloses.queue, .inl hgone, ?_⟩
      rw [hcloses.all (.inr hk), held_of_buffer_none hgone.buffer, List.append_nil,
        List.append_assoc]

theorem held_newborn (thread : ThreadId) (kind : BufferKind) (duringDrain : Bool) (r : Recorder) :
    (newborn thread kind duringDrain r).held = [] := rfl

/-- **A new writer** goes on where nothing is kept, unless it is gone already. -/
theorem ends_start_follows (h : r.Sound out e) (thread : ThreadId) (kind : BufferKind)
    (duringDrain : Bool) (he : Fallible.runOn (Recorder.leaseEpoch duringDrain) r = (.ok e, r)) :
    Ends (start thread kind duringDrain) r fun answer r' => ∀ w, answer = .ok w →
      (newborn thread kind duringDrain r).Follows [] r w r' := by
  refine (ends_start_shifts h thread kind duringDrain he).mono ?_
  rintro _ r' hbegins w rfl
  obtain ⟨l, hl, hbegins⟩ := hbegins w rfl
  obtain rfl := hl.line
  rcases hbegins with ⟨hgone, hall, hqueue⟩ | ⟨-, hbegins⟩
  · refine ⟨hl, hqueue, .inl hgone, ?_⟩
    show (r'.line (.of kind thread)).all ++ w.held = (r.line (.of kind thread)).all ++ _ ++ _
    rw [held_of_buffer_none hgone.buffer, held_newborn]
    simpa using hall
  · refine ⟨hl, hbegins.queue, .inr hbegins.all.1, ?_⟩
    show (r'.line (.of kind thread)).all ++ w.held = (r.line (.of kind thread)).all ++ _ ++ _
    obtain ⟨hkept, hall⟩ := hbegins.all
    rw [Line.all, hkept, held_newborn]
    simpa using hall

/-- **One relation after the other** comes behind all that waits. -/
theorem TakingAll.follows {w' : Writer} {r' : Recorder} {relations : List Relation}
    {outcome : Except Fault Unit} {es : List Bytes}
    (htaking : w.TakingAll relations r outcome w' r' es) (hw : w.Valid e)
    (h : r.Sound (w.buffer.toList ++ out) e) (hk : w.Gone ∨ (r.line w.lane).kept = []) :
    Refused outcome ∨ w.Follows es r w' r' := by
  induction htaking with
  | nothing => exact .inr (.refl hk)
  | failed hrun =>
    exact ((hw.append_follows h hk _).run_eq hrun _ _ rfl).imp Refused.throw id
  | taken hrun _ ih =>
    obtain ⟨_, _, ⟨⟩, hid, hpost⟩ := (hw.append h _).run_eq hrun
    obtain ⟨ht, hw₁⟩ := hpost.resolve_left (not_refused_ok _)
    have hf := ((hw.append_follows h hk _).run_eq hrun _ _ rfl).resolve_left (not_refused_ok _)
    have hlane := lane_eq_of_identity_eq hid
    exact (ih hw₁ ht.sound (hlane ▸ hf.kept)).imp id fun hf' => hf.trans hf' hlane

end Writer

namespace Recorder

variable {r : Recorder} {out : List Buffer} {e : Epoch}

/-- **The entries of a checkpoint of relations come last on their lane**, behind all that waited
there, whether they are queued or kept in the end.  Other lanes are as they were. -/
theorem Sound.writeRelations_shifts (h : r.Sound out e) (thread : ThreadId) (kind : BufferKind)
    (duringDrain : Bool) (he : Fallible.runOn (leaseEpoch duringDrain) r = (.ok e, r))
    (relations : List Relation) :
    Ends (Recorder.writeRelations thread kind duringDrain relations) r fun answer r' =>
      Refused answer ∨
        ∃ l, r.Shifts (.of kind thread) l r' ∧ (r.line (.of kind thread)).queue <+: l.queue ∧
          l.all = (r.line (.of kind thread)).all ++
            (relationEntries thread kind duringDrain relations r).entries := by
  refine (writing thread kind duringDrain relations r).mono ?_
  intro answer r' hwriting
  have hbegan := (Writer.ends_start h thread kind duringDrain he).and
    (Writer.ends_start_follows h thread kind duringDrain he)
  generalize relationEntries thread kind duringDrain relations r = published at hwriting ⊢
  cases hwriting with
  | nothing => exact .inr ⟨_, .refl r _, List.prefix_refl _, (List.append_nil _).symm⟩
  | refused hstart => exact .inl ⟨_, rfl, (hbegan.run_eq hstart).1⟩
  | @abandoned _ w w' _ _ _ _ hrows hstart htaking habandon =>
    -- A fault: the writer is abandoned, and what was cut off stays.
    obtain ⟨⟨ht, hw, -, -, hid⟩, hbegins⟩ := hbegan.run_eq hstart
    have hw : w.Valid e := .of_start hw
    have hlane : w.lane = (Writer.newborn thread kind duringDrain r).lane :=
      Writer.lane_eq_of_identity_eq hid
    obtain ⟨hid', hpost⟩ := htaking.trades hw ht.sound
    rcases hpost with hrefused | ⟨ht', hw'⟩
    · exact .inl hrefused.throw
    have hfollows := htaking.follows hw ht.sound (hlane ▸ (hbegins w rfl).kept)
    refine hfollows.imp Refused.throw fun hf => ?_
    have hf := (hbegins w rfl).trans hf hlane
    obtain ⟨l, hcloses, hl⟩ := (hw'.abandon_shifts ht'.sound).run_eq habandon
    rw [(Writer.lane_eq_of_identity_eq hid').trans hlane] at hcloses hl
    refine ⟨l, hf.shifts.trans hl, hf.queue.trans hcloses.queue, ?_⟩
    have hall := hf.all
    rw [Writer.held_newborn, List.append_nil, List.nil_append] at hall
    rw [hcloses.all (hf.kept.imp (fun hg => Writer.held_of_buffer_none hg.buffer) id), hall]
    exact congrArg _ (List.append_nil _).symm
  | @ended _ w w' r₁ r₂ _ cut hrows hstart htaking hfinish =>
    obtain ⟨⟨ht, hw, -, -, hid⟩, hbegins⟩ := hbegan.run_eq hstart
    have hw : w.Valid e := .of_start hw
    have hlane : w.lane = (Writer.newborn thread kind duringDrain r).lane :=
      Writer.lane_eq_of_identity_eq hid
    obtain ⟨hid', hpost⟩ := htaking.trades hw ht.sound
    obtain ⟨ht', hw'⟩ := hpost.resolve_left (not_refused_ok _)
    have hfollows := htaking.follows hw ht.sound (hlane ▸ (hbegins w rfl).kept)
    have hf := (hbegins w rfl).trans (hfollows.resolve_left (not_refused_ok _)) hlane
    obtain ⟨l, hcloses, hl⟩ := (hw'.finish_shifts ht'.sound).run_eq hfinish
    rw [(Writer.lane_eq_of_identity_eq hid').trans hlane] at hcloses hl
    refine .inr ⟨l, hf.shifts.trans hl, hf.queue.trans hcloses.queue, ?_⟩
    have hnone : w'.Gone → w'.held ++ (w'.lastPiece? r₂.clock).toList = [] := fun hg => by
      rw [Writer.held_of_buffer_none hg.buffer, hg.lastPiece?_eq, Option.toList_none,
        List.append_nil]
    have hall := hf.all
    rw [Writer.held_newborn, List.append_nil, List.nil_append] at hall
    rw [hcloses.all (hf.kept.imp hnone id), ← List.append_assoc, hall, List.append_assoc]
    rfl

/-- **Where nothing is kept, the entries of a checkpoint of relations are queued.** -/
theorem Sound.writeRelations_queued (h : r.Sound out e) (thread : ThreadId) {kind : BufferKind}
    (hk : kind ≠ .threadLocal) (duringDrain : Bool)
    (he : Fallible.runOn (leaseEpoch duringDrain) r = (.ok e, r)) (relations : List Relation) :
    Ends (Recorder.writeRelations thread kind duringDrain relations) r fun answer r' =>
      Refused answer ∨ r.Shifts (.of kind thread)
        ((r.line (.of kind thread)).push
          (relationEntries thread kind duringDrain relations r).entries) r' := by
  refine (h.writeRelations_shifts thread kind duringDrain he relations).mono ?_
  rintro answer r' hpost
  refine hpost.imp id ?_
  rintro ⟨l, hl, -, hall⟩
  have hkept : ∀ r : Recorder, (r.line (.of kind thread)).kept = [] :=
    fun r => r.kept_eq_nil (by rwa [Lane.kind_of])
  obtain rfl := hl.line
  rwa [Line.eq_push_of_all_eq (hkept r) (hkept r') hall] at hl

end Recorder

end TraceRecorder
