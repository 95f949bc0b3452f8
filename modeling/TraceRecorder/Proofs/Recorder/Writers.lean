/-
# Writers publish what they were given

A writer holds a buffer in which the run of segments since its last cut stands behind room for a
header (`Writer.Holds`).  What it publishes is that run framed as one entry (`entryBytes_eq`): as a
flushpoint when a segment does not fit behind others, and as the last entry when it ends.

* `Sound.start`: a new writer holds a buffer with an empty run, or it is dropped;
* `Valid.append`: a segment joins the run, or the run is published and the segment begins a new one;
* `Valid.finish`: the run is published if it does not count as empty, and the buffer comes back;
* `Valid.abandon`: the buffer comes back and the run is lost.

Each of these is a trade, so nothing that was published before is touched.
-/
import TraceRecorder.Proofs.Recorder.Leases
import TraceRecorder.Recorder.Writer

namespace TraceRecorder

open Fallible (Ends)

namespace Writer

/-! ## 1. What a writer publishes -/

/-- The bytes of the current entry, with its header filled in. -/
def entryBytes (w : Writer) (b : Buffer) (now : UInt64) (flushpoint : Bool) : Bytes :=
  let filled := w.sealEntry b now flushpoint
  (filled.committed.bytes ++ filled.pending.bytes).drop w.entryStart

/-- **A segment cuts off the current entry**: that has segments, and there is no room for one
more. -/
def Cuts (w : Writer) (b : Buffer) (segment : Bytes) : Prop :=
  w.segments ≠ 0 ∧ b.free < segment.length

instance (w : Writer) (b : Buffer) (segment : Bytes) : Decidable (w.Cuts b segment) :=
  inferInstanceAs (Decidable (_ ∧ _))

/-- **The entry that is cut off** when a segment comes, if one is. -/
def cutOff? (w : Writer) (segment : Bytes) (now : UInt64) : Option Bytes :=
  match w.dropped, w.buffer with
  | false, some b => if w.Cuts b segment then some (w.entryBytes b now true) else none
  | _, _ => none

/-- **The entry with which a writer ends**, if it has segments for one. -/
def lastPiece? (w : Writer) (now : UInt64) : Option Bytes :=
  match w.dropped, w.buffer with
  | false, some b => if w.segments = 0 then none else some (w.entryBytes b now false)
  | _, _ => none

def elapsed (w : Writer) (now : UInt64) : UInt64 :=
  if now < w.startTime then 0 else now - w.startTime

def identity (w : Writer) : ThreadId × BufferKind × UInt64 × Option Epoch :=
  (w.thread, w.kind, w.startTime, w.pinned)

theorem identity_eq_iff {w : Writer} {thread : ThreadId} {kind : BufferKind} {startTime : UInt64}
    {pinned : Option Epoch} :
    w.identity = (thread, kind, startTime, pinned) ↔
      w.thread = thread ∧ w.kind = kind ∧ w.startTime = startTime ∧ w.pinned = pinned := by
  simp only [identity, Prod.mk.injEq]

theorem sealEntry_frame (w : Writer) (b : Buffer) (now : UInt64) (flushpoint : Bool) :
    (w.sealEntry b now flushpoint).epoch = b.epoch ∧
      (w.sealEntry b now flushpoint).kind = b.kind ∧
      (w.sealEntry b now flushpoint).owner = b.owner := by
  unfold sealEntry Buffer.patch
  exact ⟨rfl, rfl, rfl⟩

/-! ## 2. Writers and their runs -/

/-- **The writer holds a buffer with a run of segments** in the current entry. -/
structure Holds (w : Writer) (b : Buffer) (run : List Bytes) (e : Epoch) : Prop where
  buffer : w.buffer = some b
  alive : w.dropped = false
  start : w.entryStart = b.used
  segments : w.segments = UInt32.ofNat run.length
  pending : b.pending.bytes = List.replicate Header.length 0 ++ run.flatten
  epoch : b.epoch = e
  owner : b.kind = .threadLocal → b.owner = .thread w.thread
  kind : b.kind = w.kind

/-- The writer was dropped, or met a fault. -/
structure Gone (w : Writer) : Prop where
  dropped : w.dropped = true
  buffer : w.buffer = none

/-- A writer of an epoch has a run or is gone. -/
def Valid (w : Writer) (e : Epoch) : Prop := w.Gone ∨ ∃ b run, w.Holds b run e

theorem gone_gone (w : Writer) : w.gone.Gone := ⟨rfl, rfl⟩

theorem Gone.dropped_ne {w : Writer} (h : w.Gone) : w.dropped ≠ false := by
  rw [h.dropped]
  decide

theorem Valid.of_start {w : Writer} {e : Epoch} (h : w.Gone ∨ ∃ b, w.Holds b [] e) : w.Valid e :=
  h.imp id fun ⟨b, hb⟩ => ⟨b, [], hb⟩

namespace Holds

variable {w : Writer} {b : Buffer} {run : List Bytes} {e : Epoch}

theorem length_pending (h : w.Holds b run e) :
    b.pending.length = Header.length + run.flatten.length := by
  rw [← Tape.length_bytes, h.pending]
  simp

theorem entrySize_eq (h : w.Holds b run e) :
    w.entrySize b = Header.length + run.flatten.length := by
  have hl := h.length_pending
  rw [entrySize, h.start, Buffer.position, Buffer.used]
  omega

/-- **A filled in header makes an entry of the run.** -/
theorem sealEntry_eq (h : w.Holds b run e) (now : UInt64) (flushpoint : Bool) :
    w.sealEntry b now flushpoint = { b with
      pending := .ofBytes (Entry.piece run w.startTime (w.elapsed now) flushpoint) } := by
  have hsize : w.entrySize b - Header.length = run.flatten.length := by
    rw [h.entrySize_eq]
    omega
  have hcommitted : ∀ bytes, b.committed.overwrite b.used bytes = b.committed := by
    intro bytes
    apply Tape.eq_of_bytes_eq
    rw [Tape.bytes_overwrite, Bytes.overwrite_of_length_le]
    rw [Tape.length_bytes]
    exact Nat.le_refl _
  have hpending : ∀ header : Header, b.pending.overwrite 0 header.encode =
      .ofBytes (header.encode ++ run.flatten) := by
    intro header
    apply Tape.eq_of_bytes_eq
    have hl : (List.replicate Header.length (0 : UInt8)).length = header.encode.length := by simp
    rw [Tape.bytes_overwrite, Tape.bytes_ofBytes, h.pending, Bytes.overwrite_append,
      Bytes.overwrite_of_length_eq hl, List.length_replicate, List.drop_of_length_le (by simp),
      Bytes.overwrite]
  rw [sealEntry, Buffer.patch, h.start, hcommitted, Nat.sub_self, List.drop_zero, hpending, hsize,
    h.segments]
  rfl

theorem entryBytes_eq (h : w.Holds b run e) (now : UInt64) (flushpoint : Bool) :
    w.entryBytes b now flushpoint =
      Entry.piece run w.startTime (w.elapsed now) flushpoint := by
  rw [entryBytes, h.sealEntry_eq]
  simp only [Tape.bytes_ofBytes]
  rw [h.start]
  exact List.drop_left' (Tape.length_bytes _)

theorem cutOff?_eq (h : w.Holds b run e) (segment : Bytes) (now : UInt64) :
    w.cutOff? segment now =
      if w.Cuts b segment then some (Entry.piece run w.startTime (w.elapsed now) true)
      else none := by
  rw [cutOff?, h.alive, h.buffer, ← h.entryBytes_eq]

theorem lastPiece?_eq (h : w.Holds b run e) (now : UInt64) :
    w.lastPiece? now = if w.segments = 0 then none
      else some (Entry.piece run w.startTime (w.elapsed now) false) := by
  rw [lastPiece?, h.alive, h.buffer, ← h.entryBytes_eq]

/-- **As long as a word can count the segments**, only an empty run counts as one. -/
theorem segments_eq_zero_iff (h : w.Holds b run e) (hcount : run.length < UInt32.size) :
    w.segments = 0 ↔ run = [] := by
  rw [h.segments, ← UInt32.toNat_inj, UInt32.toNat_ofNat_of_lt' hcount]
  exact List.length_eq_zero_iff

theorem size_lt {kind : BufferKind} {o : SpaceOptions} (h : w.Holds b run e) (hf : b.Fits kind o) :
    Header.length + run.flatten.length < UInt64.size := by
  have hw := hf.within
  have hg := hf.granted
  have hl := h.length_pending
  have hc : Memory.addressable < UInt64.size := by decide
  rw [Buffer.position] at hw
  omega

end Holds

theorem Holds.sound {w : Writer} {b : Buffer} {run : List Bytes} {e : Epoch} {r : Recorder}
    {out : List Buffer} (hw : w.Holds b run e) (h : r.Sound (w.buffer.toList ++ out) e) :
    r.Sound (b :: out) e := by
  rwa [hw.buffer] at h

/-- **The filled in entry takes the place of the run.** -/
theorem Holds.sealed {w : Writer} {b : Buffer} {run : List Bytes} {e : Epoch} {r : Recorder}
    {out : List Buffer} (hw : w.Holds b run e) (h : r.Sound (b :: out) e) (now : UInt64)
    (flushpoint : Bool) :
    Recorder.Trades r (b :: out) r (w.sealEntry b now flushpoint :: out) e {} ∧
      (w.sealEntry b now flushpoint).pending.bytes =
        Entry.piece run w.startTime (w.elapsed now) flushpoint ∧
      (w.sealEntry b now flushpoint).pending.length = w.entrySize b ∧
      Entry.Whole (Entry.piece run w.startTime (w.elapsed now) flushpoint) := by
  have hfits : (w.sealEntry b now flushpoint).Fits b.kind (r.options.space b.kind) := by
    rw [hw.sealEntry_eq]
    exact { h.fits with
      within := by
        have hin := h.fits.within
        have hlen := hw.length_pending
        simp only [Buffer.position, Tape.length_ofBytes, Entry.length_piece] at hin ⊢
        omega }
  have hid : (w.sealEntry b now flushpoint).id = b.id := by
    rw [hw.sealEntry_eq]
  have hload : (w.sealEntry b now flushpoint).load? = b.load? := by
    rw [hw.sealEntry_eq]
    rfl
  refine ⟨h.exchange hid hfits hload, ?_, ?_, Entry.whole_piece (hw.size_lt h.fits)⟩
  · rw [hw.sealEntry_eq]
    exact Tape.bytes_ofBytes _
  · rw [hw.sealEntry_eq, hw.entrySize_eq, ← Entry.length_piece]
    exact Tape.length_ofBytes _

theorem Gone.cutOff?_eq {w : Writer} (h : w.Gone) (segment : Bytes) (now : UInt64) :
    w.cutOff? segment now = none := by
  rw [cutOff?, h.dropped]

theorem Gone.lastPiece?_eq {w : Writer} (h : w.Gone) (now : UInt64) : w.lastPiece? now = none := by
  rw [lastPiece?, h.dropped]

theorem Valid.owner {w : Writer} {e : Epoch} (h : w.Valid e) {b : Buffer} (hb : w.buffer = some b) :
    b.kind = .threadLocal → b.owner = .thread w.thread := by
  rcases h with h | ⟨b', run, h⟩
  · rw [h.buffer] at hb
    cases hb
  · rw [h.buffer] at hb
    cases hb
    exact h.owner

/-- **A writer opens an entry** in a buffer that is ready. -/
theorem holds_openEntry {w : Writer} {b : Buffer} {e : Epoch} {r : Recorder} {out : List Buffer}
    (h : r.Sound (b :: out) e) {size : Nat} (hb : b.Ready w.kind w.thread e size)
    (hs : Header.length ≤ size) (ha : w.dropped = false) :
    ∃ b', (w.openEntry b).Holds b' [] e ∧ Recorder.Trades r (b :: out) r (b' :: out) e {} ∧
      b'.free + Header.length = b.free ∧ b'.entries = b.entries := by
  have hroom : Header.length ≤ b.free := Nat.le_trans hs hb.room
  have happend : b.append? (List.replicate Header.length 0) =
      some { b with pending := .ofBytes (List.replicate Header.length 0) } := by
    rw [Buffer.append?, if_neg, hb.pending]
    · rfl
    · rw [List.length_replicate]
      omega
  have hfits : { b with pending := .ofBytes (List.replicate Header.length 0) }.Fits b.kind
      (r.options.space b.kind) :=
    { h.fits with
      within := by
        have hl : Header.length = 32 := rfl
        simp only [Buffer.free, Buffer.position, hb.pending, Tape.length_empty,
          Tape.length_ofBytes, List.length_replicate] at hroom ⊢
        omega }
  refine ⟨{ b with pending := .ofBytes (List.replicate Header.length 0) }, ?_,
    h.exchange rfl hfits rfl, ?_, by rw [Buffer.entries, Buffer.entries]⟩
  case' refine_2 =>
    simp only [Buffer.free, Buffer.position, hb.pending, Tape.length_empty, Tape.length_ofBytes,
      List.length_replicate] at hroom ⊢
    omega
  refine ⟨?_, ha, ?_, rfl, ?_, hb.epoch, hb.owner, hb.kind⟩
  · rw [openEntry, happend]
    rfl
  · show b.position = b.used
    rw [Buffer.position, hb.pending]
    rfl
  · simp

/-! ## 3. Giving up -/

variable {w : Writer} {r : Recorder} {out : List Buffer} {e : Epoch}

theorem ends_releaseBuffer (h : r.Sound (w.buffer.toList ++ out) e)
    (ho : ∀ b, w.buffer = some b → b.kind = .threadLocal → b.owner = .thread w.thread) :
    Ends w.releaseBuffer r fun answer r' =>
      answer = .ok () ∧ Recorder.Trades r (w.buffer.toList ++ out) r' out e {} := by
  unfold releaseBuffer
  cases hb : w.buffer with
  | none =>
    rw [hb] at h
    exact Ends.of_run (Fallible.runOn_pure _ _) ⟨rfl, .refl h⟩
  | some b =>
    rw [hb] at h
    exact Recorder.Sound.release h (ho b hb)

/-- **A checkpoint is dropped.** -/
theorem ends_drop (h : r.Sound (w.buffer.toList ++ out) e)
    (ho : ∀ b, w.buffer = some b → b.kind = .threadLocal → b.owner = .thread w.thread) :
    Ends w.drop r fun answer r' => answer = .ok w.gone ∧
      Recorder.Trades r (w.buffer.toList ++ out) r' out e {} := by
  unfold drop
  have hcount := h.count (f := fun s => { s with checkpointsDropped := s.checkpointsDropped + 1 })
    rfl rfl
  refine Ends.after (Fallible.runOn_modify _ _) ?_
  refine Ends.attempt (ends_releaseBuffer hcount ho) ?_
  rintro _ r' ⟨-, ht⟩
  exact Ends.of_run (Fallible.runOn_pure _ _)
    ⟨rfl, ht.sound, ht.surroundings, ht.entries, ht.cut, ht.last⟩

/-- **A writer that meets a fault is gone**, and what it held comes back. -/
theorem ends_fail (h : r.Sound (w.buffer.toList ++ out) e)
    (ho : ∀ b, w.buffer = some b → b.kind = .threadLocal → b.owner = .thread w.thread)
    (fault : Fault) :
    Ends (w.fail fault) r fun answer r' => (∃ outcome, answer = .ok (outcome, w.gone)) ∧
      Recorder.Trades r (w.buffer.toList ++ out) r' out e {} := by
  unfold fail
  by_cases hf : fault.isExhausted = true
  · rw [if_pos hf]
    exact (ends_drop h ho).next fun r' ht =>
      Ends.of_run (Fallible.runOn_pure _ _) ⟨⟨_, rfl⟩, ht⟩
  · rw [if_neg hf]
    refine Ends.attempt (ends_releaseBuffer h ho) ?_
    rintro _ r' ⟨-, ht⟩
    exact Ends.of_run (Fallible.runOn_pure _ _) ⟨⟨_, rfl⟩, ht⟩

end Writer

/-- **Memory was refused.** -/
def Refused {α : Type} (answer : Except Fault α) : Prop :=
  ∃ fault, answer = .error fault ∧ fault.endsThread = true

theorem Refused.throw {α β : Type} {fault : Fault} (h : Refused (.error fault : Except Fault α)) :
    Refused (.error fault : Except Fault β) := by
  obtain ⟨_, ⟨⟩, hf⟩ := h
  exact ⟨fault, rfl, hf⟩

theorem Refused.of_fault {α β : Type} {fault : Fault}
    (h : Refused (.error fault : Except Fault α) ∨ ∃ a, (.error fault : Except Fault α) = .ok a) :
    Refused (.error fault : Except Fault β) := by
  rcases h with h | ⟨_, ⟨⟩⟩
  exact h.throw

theorem not_refused_ok {α : Type} (a : α) : ¬ Refused (.ok a) := by
  rintro ⟨_, ⟨⟩, -⟩

namespace Writer

variable {w : Writer} {r : Recorder} {out : List Buffer} {e : Epoch}

theorem runOn_fail_of_endsThread (hb : w.buffer = none) {fault : Fault}
    (hf : fault.endsThread = true) :
    Fallible.runOn (w.fail fault) r = (.ok (.error fault, w.gone), r) := by
  unfold fail releaseBuffer
  rw [if_neg (by simp [Fault.not_isExhausted_of_endsThread hf]), hb]
  rfl

/-! ## 4. Segments -/

/-- **The writer after one more segment**: the segment has joined the run, or has begun a new one
behind a cut. -/
structure Took (w : Writer) (b : Buffer) (run : List Bytes) (segment : Bytes) (w' : Writer)
    (e : Epoch) : Prop where
  holds : ∃ b', w'.Holds b' (if w.Cuts b segment then [segment] else run ++ [segment]) e
  pieces : w'.pieces = w.pieces + if w.Cuts b segment then 1 else 0
  written : w'.written = w.written + if w.Cuts b segment then w.entrySize b else 0

/-- A segment goes behind the run, or the writer is gone. -/
theorem Holds.place {b : Buffer} {run : List Bytes} (hw : w.Holds b run e)
    (h : r.Sound (b :: out) e) (segment : Bytes) :
    Ends (w.place b segment) r fun answer r' => ∃ outcome w', answer = .ok (outcome, w') ∧
      w'.identity = w.identity ∧ Recorder.Trades r (b :: out) r' (w'.buffer.toList ++ out) e {} ∧
      (w'.Gone ∨ (∃ b', w'.Holds b' (run ++ [segment]) e) ∧ w'.pieces = w.pieces ∧
        w'.written = w.written) := by
  unfold Writer.place
  cases happend : b.append? segment with
  | none =>
    refine (ends_fail (w := { w with buffer := some b }) h ?_ _).mono ?_
    · rintro _ ⟨⟩
      exact hw.owner
    · rintro answer r' ⟨⟨outcome, rfl⟩, ht⟩
      exact ⟨outcome, _, rfl, rfl, ht, .inl (gone_gone _)⟩
  | some grown =>
    unfold Buffer.append? at happend
    split at happend
    · cases happend
    · rename_i hroom
      cases happend
      have hfits : { b with pending := b.pending.append segment }.Fits b.kind
          (r.options.space b.kind) :=
        { h.fits with
          within := by
            have hin := h.fits.within
            simp only [Buffer.free, Buffer.position, Tape.length_append] at hroom hin ⊢
            omega }
      refine Ends.of_run (Fallible.runOn_pure _ _) ⟨.ok (), _, rfl, rfl, h.exchange rfl hfits rfl,
        .inr ⟨⟨{ b with pending := b.pending.append segment }, ?_⟩, rfl, rfl⟩⟩
      refine ⟨rfl, hw.alive, hw.start, ?_, ?_, hw.epoch, hw.owner, hw.kind⟩
      · show w.segments + 1 = _
        rw [hw.segments, List.length_append, UInt32.ofNat_add]
        rfl
      · show (b.pending.append segment).bytes = _
        rw [Tape.bytes_append, hw.pending, List.flatten_append, List.append_assoc]
        simp

/-- **What comes of one more segment**, unless memory is refused: the segment is taken, or the
writer is gone. -/
def Appends (w : Writer) (b : Buffer) (run : List Bytes) (segment : Bytes) (e : Epoch)
    (r : Recorder) (out : List Buffer) (answer : Except Fault (Except Fault Unit × Writer))
    (r' : Recorder) : Prop :=
  ∃ outcome w', answer = .ok (outcome, w') ∧ w'.identity = w.identity ∧ (Refused outcome ∨
    Recorder.Trades r (b :: out) r' (w'.buffer.toList ++ out) e
      ⟨(w.cutOff? segment r.clock).toList, []⟩ ∧
    (w'.Gone ∨ w.Took b run segment w' e))

theorem ends_fail_bare (w' : Writer) {b : Buffer} {r₁ : Recorder} {p : Published} {fault : Fault}
    (hid : w'.identity = w.identity) (hb : w'.buffer = none)
    (h : fault.endsThread = true ∨ Recorder.Trades r (b :: out) r₁ out e p) :
    Ends (w'.fail fault) r₁ fun answer r' => ∃ outcome w', answer = .ok (outcome, w') ∧
      w'.identity = w.identity ∧ (Refused outcome ∨
        Recorder.Trades r (b :: out) r' (w'.buffer.toList ++ out) e p ∧ w'.Gone) := by
  rcases h with hf | ht
  · exact Ends.of_run (runOn_fail_of_endsThread hb hf) ⟨_, _, rfl, hid, .inl ⟨_, rfl, hf⟩⟩
  · have hs : r₁.Sound (w'.buffer.toList ++ out) e := by
      rw [hb]
      exact ht.sound
    refine (ends_fail hs (fun x hx => by rw [hb] at hx; cases hx) fault).mono ?_
    rintro answer r' ⟨⟨outcome, rfl⟩, ht'⟩
    rw [hb] at ht'
    exact ⟨outcome, _, rfl, hid, .inr ⟨ht.trans_nothing ht', gone_gone _⟩⟩

theorem Holds.appends_of_place {w₁ : Writer} {b b₁ : Buffer} {run run₁ : List Bytes}
    {r₁ : Recorder} {segment : Bytes} (hw : w₁.Holds b₁ run₁ e)
    (ht : Recorder.Trades r (b :: out) r₁ (b₁ :: out) e ⟨(w.cutOff? segment r.clock).toList, []⟩)
    (hid : w₁.identity = w.identity)
    (hrun : run₁ ++ [segment] = if w.Cuts b segment then [segment] else run ++ [segment])
    (hpieces : w₁.pieces = w.pieces + if w.Cuts b segment then 1 else 0)
    (hwritten : w₁.written = w.written + if w.Cuts b segment then w.entrySize b else 0) :
    Ends (w₁.place b₁ segment) r₁ (w.Appends b run segment e r out) := by
  refine (hw.place ht.sound segment).mono ?_
  rintro answer r' ⟨outcome, w', rfl, hid', ht', hw'⟩
  refine ⟨outcome, w', rfl, hid'.trans hid, .inr ⟨ht.trans_nothing ht', hw'.imp id ?_⟩⟩
  rintro ⟨hholds, hp, hn⟩
  exact ⟨hrun ▸ hholds, hp.trans hpieces, hn.trans hwritten⟩

theorem ends_fail_appends (w' : Writer) {b : Buffer} {run : List Bytes} {r₁ : Recorder}
    {fault : Fault} {segment : Bytes} (hid : w'.identity = w.identity) (hb : w'.buffer = none)
    (h : fault.endsThread = true ∨
      Recorder.Trades r (b :: out) r₁ out e ⟨(w.cutOff? segment r.clock).toList, []⟩) :
    Ends (w'.fail fault) r₁ (w.Appends b run segment e r out) := by
  refine (ends_fail_bare w' hid hb h).mono ?_
  rintro answer r' ⟨outcome, w', rfl, hid, hfailed⟩
  exact ⟨outcome, w', rfl, hid, hfailed.imp id fun ⟨ht, hgone⟩ => ⟨ht, .inl hgone⟩⟩

/-- The writer that goes on behind a cut. -/
def behindCut (w : Writer) (b : Buffer) : Writer :=
  { w with written := w.written + w.entrySize b, pieces := w.pieces + 1 }

/-- **The ways in which a writer takes a segment.**  There is room for it; or the entry moves to a
larger buffer first; or the entry is cut off, and the segment begins one in a fresh buffer; or there
is no such buffer. -/
inductive Taking (w : Writer) (b : Buffer) (run : List Bytes) (segment : Bytes) (e : Epoch)
    (r : Recorder) (out : List Buffer) (answer : Except Fault (Except Fault Unit × Writer))
    (r' : Recorder) : Prop where
  | fits (hroom : segment.length ≤ b.free)
      (hplace : Fallible.runOn (w.place b segment) r = (answer, r'))
  | renewed {renewed : Buffer} {r₁ : Recorder} (hseg : w.segments = 0)
      (hrenew : Fallible.runOn (Recorder.renew b w.thread segment.length w.kind) r =
        (.ok renewed, r₁))
      (ht : Recorder.Trades r (b :: out) r₁ (renewed :: out) e {})
      (hnew : Holds { w with buffer := some renewed, entryStart := renewed.used } renewed run e)
      (hplace : Fallible.runOn
        (place { w with buffer := some renewed, entryStart := renewed.used } renewed segment) r₁ =
          (answer, r'))
  | exhausted {fault : Fault} {r₁ : Recorder} (hseg : w.segments = 0)
      (hrenew : Fallible.runOn (Recorder.renew b w.thread segment.length w.kind) r =
        (.error fault, r₁))
      (hfail : Fallible.runOn (fail { w with buffer := none } fault) r₁ = (answer, r'))
  | cut {fresh opened : Buffer} {r₁ : Recorder} (hcut : w.Cuts b segment)
      (hflush : Fallible.runOn (Recorder.flush (w.sealEntry b r.clock true) (w.entrySize b)
        (Header.length + segment.length) w.thread) r = (.ok fresh, r₁))
      (ht : Recorder.Trades r (b :: out) r₁ (opened :: out) e
        ⟨(w.cutOff? segment r.clock).toList, []⟩)
      (hopen : ((w.behindCut b).openEntry fresh).Holds opened [] e)
      (hroom : segment.length ≤ opened.free) (hentries : opened.entries = fresh.entries)
      (hplace : Fallible.runOn (((w.behindCut b).openEntry fresh).place opened segment) r₁ =
        (answer, r'))
  | cutExhausted {fault : Fault} {r₁ : Recorder} (hcut : w.Cuts b segment)
      (hflush : Fallible.runOn (Recorder.flush (w.sealEntry b r.clock true) (w.entrySize b)
        (Header.length + segment.length) w.thread) r = (.error fault, r₁))
      (hfail : Fallible.runOn (fail { w with buffer := none } fault) r₁ = (answer, r'))

/-- **A cut commits the run**, if memory is not refused, and a fresh buffer has the room. -/
theorem Holds.flush {b : Buffer} {run : List Bytes} (hw : w.Holds b run e)
    (h : r.Sound (b :: out) e) {segment : Bytes} (hcut : w.Cuts b segment) :
    Ends (Recorder.flush (w.sealEntry b r.clock true) (w.entrySize b)
        (Header.length + segment.length) w.thread) r fun answer r₁ => match answer with
      | .ok fresh => Recorder.Trades r (b :: out) r₁ (fresh :: out) e
            ⟨(w.cutOff? segment r.clock).toList, []⟩ ∧
          fresh.Ready w.kind w.thread e (Header.length + segment.length)
      | .error fault => fault.endsThread = true ∨ Recorder.Trades r (b :: out) r₁ out e
            ⟨(w.cutOff? segment r.clock).toList, []⟩ := by
  obtain ⟨hsealed, hbytes, hlen, hwhole⟩ := hw.sealed h r.clock true
  obtain ⟨hepoch, hbkind, -⟩ := w.sealEntry_frame b r.clock true
  have hflush := hsealed.sound.flush (hepoch.trans hw.epoch) (by rwa [hbytes])
    (Header.length + segment.length) w.thread
  rw [hbytes, hlen, hbkind] at hflush
  rw [hw.cutOff?_eq, if_pos hcut]
  refine hflush.mono ?_
  rintro (fault | fresh) r₁ hpost
  · exact hpost.imp id fun ⟨_, ht⟩ => hsealed.nothing_trans ht
  · exact ⟨hsealed.nothing_trans hpost.1, hw.kind ▸ hpost.2.1⟩

/-- **How a writer takes a segment**, step by step. -/
theorem Holds.taking {b : Buffer} {run : List Bytes} (hw : w.Holds b run e)
    (h : r.Sound (b :: out) e) (segment : Bytes) :
    Ends (w.append segment) r (w.Taking b run segment e r out) := by
  unfold Writer.append
  split
  · rename_i hd
    rw [hw.alive] at hd
    cases hd
  · rename_i hn _
    rw [hw.buffer] at hn
    cases hn
  rename_i held _ hb
  obtain rfl : b = held := Option.some.inj (hw.buffer.symm.trans hb)
  by_cases hroom : segment.length ≤ b.free
  · rw [if_pos hroom]
    exact Ends.of_run rfl (.fits hroom rfl)
  rw [if_neg hroom]
  by_cases hseg : w.segments = 0
  · rw [if_pos hseg]
    refine Ends.attempt ((h.renew hw.epoch w.thread segment.length w.kind).and (.self _ _)) ?_
    rintro (fault | renewed) r₁ ⟨hpost, hrenew⟩
    · exact Ends.of_run rfl (.exhausted hseg hrenew rfl)
    · obtain ⟨ht, hk, -, hpending, hepoch, howner⟩ := hpost
      refine Ends.of_run rfl (.renewed hseg hrenew ht ?_ rfl)
      exact ⟨rfl, hw.alive, rfl, hw.segments, by rw [hpending, hw.pending], hepoch, howner, hk⟩
  · rw [if_neg hseg]
    have hcut : w.Cuts b segment := ⟨hseg, Nat.lt_of_not_le hroom⟩
    refine Ends.after (Fallible.runOn_get r) (Ends.attempt ((hw.flush h hcut).and (.self _ _)) ?_)
    rintro (fault | fresh) r₁ ⟨hpost, hflush⟩
    · exact Ends.of_run rfl (.cutExhausted hcut hflush rfl)
    · obtain ⟨ht, hready⟩ := hpost
      obtain ⟨opened, hopen, ht', hfree, hentries⟩ := holds_openEntry (w := w.behindCut b) ht.sound
        hready (Nat.le_add_right _ _) hw.alive
      have hroom : segment.length ≤ opened.free := by
        have hr := hready.room
        omega
      have hbuffer : (openEntry { w with
          written := w.written + w.entrySize b
          pieces := w.pieces + 1 } fresh).buffer = some opened := hopen.buffer
      dsimp only
      rw [hbuffer]
      exact Ends.of_run rfl
        (.cut hcut hflush (ht.trans_nothing ht') hopen hroom hentries rfl)

/-- **One more segment.**  Unless memory is refused the segment is taken, after a cut if there is
no room behind others, or the writer is gone. -/
theorem Holds.append {b : Buffer} {run : List Bytes} (hw : w.Holds b run e)
    (h : r.Sound (b :: out) e) (segment : Bytes) :
    Ends (w.append segment) r (w.Appends b run segment e r out) := by
  refine (hw.taking h segment).mono ?_
  intro answer r' htaking
  have hnone : ¬ w.Cuts b segment → (w.cutOff? segment r.clock).toList = [] := by
    intro hcut
    rw [hw.cutOff?_eq, if_neg hcut]
    rfl
  cases htaking with
  | fits hroom hplace =>
    have hcut : ¬ w.Cuts b segment := fun hc => Nat.not_lt.2 hroom hc.2
    refine (hw.appends_of_place (w := w) ?_ rfl ?_ ?_ ?_).run_eq hplace
    · rw [hnone hcut]
      exact .refl h
    all_goals simp [hcut]
  | renewed hseg hrenew ht hnew hplace =>
    have hcut : ¬ w.Cuts b segment := fun hc => hc.1 hseg
    refine (hnew.appends_of_place (w := w) ?_ rfl ?_ ?_ ?_).run_eq hplace
    · rwa [hnone hcut]
    all_goals simp [hcut]
  | exhausted hseg hrenew hfail =>
    refine (ends_fail_appends (w := w) { w with buffer := none } rfl rfl ?_).run_eq hfail
    rw [hnone fun hc => hc.1 hseg]
    exact (h.renew hw.epoch w.thread segment.length w.kind).run_eq hrenew
  | cut hcut hflush ht hopen hroom hentries hplace =>
    refine (hopen.appends_of_place ht rfl ?_ ?_ ?_).run_eq hplace
    all_goals simp [hcut, behindCut, openEntry]
  | cutExhausted hcut hflush hfail =>
    exact (ends_fail_appends (w := w) { w with buffer := none } rfl rfl
      ((hw.flush h hcut).run_eq hflush)).run_eq hfail

theorem Gone.runOn_append (hw : w.Gone) (segment : Bytes) :
    Fallible.runOn (w.append segment) r = (.ok (.ok (), w), r) := by
  unfold Writer.append
  split
  · rfl
  · rfl
  · rename_i hn _
    rw [hw.dropped] at hn
    cases hn

/-- **A writer that may be gone takes one more segment.** -/
theorem Valid.append (hw : w.Valid e) (h : r.Sound (w.buffer.toList ++ out) e) (segment : Bytes) :
    Ends (w.append segment) r fun answer r' => ∃ outcome w', answer = .ok (outcome, w') ∧
      w'.identity = w.identity ∧ (Refused outcome ∨
        Recorder.Trades r (w.buffer.toList ++ out) r' (w'.buffer.toList ++ out) e
          ⟨(w.cutOff? segment r.clock).toList, []⟩ ∧ w'.Valid e) := by
  rcases hw with hw | ⟨b, run, hw⟩
  · rw [hw.cutOff?_eq]
    exact Ends.of_run (hw.runOn_append segment) ⟨_, w, rfl, rfl, .inr ⟨.refl h, .inl hw⟩⟩
  · rw [hw.buffer] at h ⊢
    refine (hw.append h segment).mono ?_
    rintro answer r' ⟨outcome, w', rfl, hid, hpost⟩
    refine ⟨outcome, w', rfl, hid, hpost.imp id ?_⟩
    rintro ⟨ht, hw'⟩
    refine ⟨ht, hw'.imp id ?_⟩
    intro htook
    obtain ⟨b', hb'⟩ := htook.holds
    exact ⟨b', _, hb'⟩

/-! ## 5. Beginning and ending -/

/-- The recorder that a new writer has entered. -/
def entered (duringDrain : Bool) (r : Recorder) : Recorder :=
  if duringDrain then r else r.moveEpoch EpochController.enter

theorem options_entered (duringDrain : Bool) (r : Recorder) :
    (entered duringDrain r).options = r.options := by cases duringDrain <;> rfl

theorem stats_entered (duringDrain : Bool) (r : Recorder) :
    (entered duringDrain r).stats = r.stats := by cases duringDrain <;> rfl

theorem sound_entered (h : r.Sound out e) (duringDrain : Bool) :
    (entered duringDrain r).Sound out e := by
  cases duringDrain
  · exact h.moveEpoch _
  · exact h

theorem leaseEpoch_entered {duringDrain : Bool}
    (he : Fallible.runOn (Recorder.leaseEpoch duringDrain) r = (.ok e, r)) :
    Fallible.runOn (Recorder.leaseEpoch duringDrain) (entered duringDrain r) =
      (.ok e, entered duringDrain r) := by
  cases duringDrain
  · cases he
    rfl
  · exact he

/-- The recorder that a writer has left. -/
def left (w : Writer) (r : Recorder) : Recorder :=
  match w.pinned with
  | some epoch => r.moveEpoch (·.leave epoch)
  | none => r

theorem runOn_unpin (w : Writer) (r : Recorder) :
    Fallible.runOn w.unpin r = (.ok (), w.left r) := by
  unfold unpin left
  cases w.pinned <;> rfl

/-- A writer that has no buffer yet. -/
def newborn (thread : ThreadId) (kind : BufferKind) (duringDrain : Bool) (r : Recorder) :
    Writer where
  thread := thread
  kind := kind
  startTime := r.clock
  pinned := if duringDrain then none else some r.epoch.current

/-- **The ways in which a checkpoint begins**: the recorder was aborted; or there is a buffer; or
there is none, and the writer ends with the fault or drops its checkpoint. -/
inductive Starting (thread : ThreadId) (kind : BufferKind) (duringDrain : Bool) (r : Recorder) :
    Except Fault Writer → Recorder → Prop where
  | aborted (ha : r.aborted = true) : Starting thread kind duringDrain r
      (.ok (newborn thread kind duringDrain r).gone) (entered duringDrain r)
  | began {b : Buffer} {r₁ : Recorder} (ha : r.aborted = false)
      (hacquire : Fallible.runOn (Recorder.acquire thread kind duringDrain Header.length)
        (entered duringDrain r) = (.ok b, r₁)) :
      Starting thread kind duringDrain r
        (.ok ((newborn thread kind duringDrain r).openEntry b)) r₁
  | refused {fault : Fault} {r₁ : Recorder} (ha : r.aborted = false)
      (hacquire : Fallible.runOn (Recorder.acquire thread kind duringDrain Header.length)
        (entered duringDrain r) = (.error fault, r₁)) (hf : fault.endsThread = true) :
      Starting thread kind duringDrain r (.error fault)
        ((newborn thread kind duringDrain r).left r₁)
  | dropped {fault : Fault} {r₁ r' : Recorder} {answer : Except Fault Writer}
      (ha : r.aborted = false)
      (hacquire : Fallible.runOn (Recorder.acquire thread kind duringDrain Header.length)
        (entered duringDrain r) = (.error fault, r₁)) (hf : ¬ fault.endsThread = true)
      (hdrop : Fallible.runOn (newborn thread kind duringDrain r).drop r₁ = (answer, r')) :
      Starting thread kind duringDrain r answer r'

/-- **How a checkpoint begins**, step by step. -/
theorem starting (thread : ThreadId) (kind : BufferKind) (duringDrain : Bool) (r : Recorder) :
    Ends (start thread kind duringDrain) r (Starting thread kind duringDrain r) := by
  unfold start
  refine Ends.after (Fallible.runOn_get r) ?_
  cases duringDrain
  case' false => refine Ends.after (Fallible.runOn_set _ _) ?_
  all_goals
    dsimp only
    by_cases ha : r.aborted = true
    · rw [if_pos ha]
      exact Ends.of_run (Fallible.runOn_pure _ _) (.aborted ha)
    rw [if_neg ha]
    have ha : r.aborted = false := Bool.eq_false_iff.2 ha
    refine Ends.attempt (.self _ _) ?_
    rintro (fault | b) r₁ hacquire
    · by_cases hf : fault.endsThread = true
      · dsimp only
        rw [if_pos hf]
        exact Ends.after (runOn_unpin _ _)
          (Ends.of_run (Fallible.runOn_throw _ _) (.refused ha hacquire hf))
      · dsimp only
        rw [if_neg hf]
        exact Ends.of_run rfl (.dropped ha hacquire hf rfl)
    · exact Ends.of_run (Fallible.runOn_pure _ _) (.began ha hacquire)

/-- **A checkpoint begins** with an empty run, or it is dropped. -/
theorem ends_start (h : r.Sound out e) (thread : ThreadId) (kind : BufferKind) (duringDrain : Bool)
    (he : Fallible.runOn (Recorder.leaseEpoch duringDrain) r = (.ok e, r)) :
    Ends (start thread kind duringDrain) r fun answer r' => match answer with
      | .error fault => fault.endsThread = true
      | .ok w => Recorder.Trades (entered duringDrain r) out r' (w.buffer.toList ++ out) e {} ∧
          (w.Gone ∨ ∃ b, w.Holds b [] e) ∧ w.pieces = 1 ∧ w.written = 0 ∧ w.identity =
            (thread, kind, r.clock, if duringDrain then none else some r.epoch.current) := by
  have hs := sound_entered h duringDrain
  have he' := leaseEpoch_entered he
  refine (starting thread kind duringDrain r).mono ?_
  rintro answer r' hcase
  cases hcase with
  | aborted ha => exact ⟨.refl hs, .inl (gone_gone _), rfl, rfl, rfl⟩
  | began ha hacquire =>
    obtain ⟨ht, hready⟩ := (hs.acquire thread kind he' Header.length).run_eq hacquire
    obtain ⟨opened, hopen, ht', -⟩ := holds_openEntry (w := newborn thread kind duringDrain r)
      ht.sound hready (Nat.le_refl _) rfl
    refine ⟨?_, .inr ⟨opened, hopen⟩, rfl, rfl, rfl⟩
    rw [hopen.buffer]
    exact ht.nothing_trans ht'
  | refused ha hacquire hf => exact hf
  | dropped ha hacquire hf hdrop =>
    obtain ⟨-, ht⟩ :=
      ((hs.acquire thread kind he' Header.length).run_eq hacquire).resolve_left hf
    have hgone := ends_drop (w := newborn thread kind duringDrain r) ht.sound (by rintro _ ⟨⟩)
    obtain ⟨rfl, ht'⟩ := hgone.run_eq hdrop
    exact ⟨ht.nothing_trans ht', .inl (gone_gone _), rfl, rfl, rfl⟩

/-- What a checkpoint commits at its end, its header included. -/
def lastSize (w : Writer) (run : List Bytes) : Nat :=
  if w.segments = 0 then 0 else Header.length + run.flatten.length

/-- **A checkpoint ends**: its run is published. -/
theorem Holds.close {b : Buffer} {run : List Bytes} (hw : w.Holds b run e)
    (h : r.Sound (b :: out) e) :
    Ends w.close r fun answer r' => answer = .ok (w.written + w.lastSize run) ∧
      Recorder.Trades r (b :: out) r' out e ⟨[], (w.lastPiece? r.clock).toList⟩ := by
  rw [hw.lastPiece?_eq]
  unfold Writer.close
  rw [if_neg (by simp [hw.alive])]
  by_cases hseg : w.segments = 0
  · have hs : r.Sound (w.buffer.toList ++ out) e := by rwa [hw.buffer]
    rw [if_pos hseg, if_pos hseg]
    refine (ends_releaseBuffer hs fun b' hb' => Valid.owner (.inr ⟨b, run, hw⟩) hb').next ?_
    intro r' ht
    rw [hw.buffer] at ht
    refine Ends.of_run (Fallible.runOn_pure _ _) ⟨?_, ht⟩
    rw [lastSize, if_pos hseg]
    rfl
  · rw [if_neg hseg, if_neg hseg]
    refine Ends.after (Fallible.runOn_get r) (Ends.after (Fallible.runOn_modify _ _) ?_)
    obtain ⟨hsealed, hbytes, -, hwhole⟩ := hw.sealed h r.clock false
    obtain ⟨hepoch, hbkind, hbowner⟩ := w.sealEntry_frame b r.clock false
    obtain ⟨hs, -, hentries⟩ := hsealed.sound.commitAll (hepoch.trans hw.epoch) (by rwa [hbytes])
    rw [hbytes] at hentries
    have hs := hs.count (f := fun s => { s with checkpointsWritten := s.checkpointsWritten + 1 })
      rfl rfl
    split
    · rename_i hn
      rw [hw.buffer] at hn
      cases hn
    · rename_i held hb
      obtain rfl : b = held := Option.some.inj (hw.buffer.symm.trans hb)
      dsimp only
      generalize w.sealEntry b r.clock false = filled at *
      have howner : filled.commitAll.kind = .threadLocal →
          filled.commitAll.owner = .thread w.thread :=
        fun hl => hbowner.trans (hw.owner (hbkind.symm.trans hl))
      refine (Recorder.Sound.release hs howner).next fun r' ht => ?_
      refine Ends.of_run (Fallible.runOn_pure _ _) ⟨?_, ?_⟩
      · rw [lastSize, if_neg hseg, hw.entrySize_eq]
      · refine ⟨ht.sound, ht.surroundings, ?_, ht.cut, ht.last⟩
        intro x
        exact (ht.entries x).trans ((hentries x).trans (congrArg (· + _) (hsealed.entries x)))

theorem Gone.runOn_close (hw : w.Gone) : Fallible.runOn w.close r = (.ok 0, r) := by
  unfold Writer.close
  rw [if_pos hw.dropped]
  rfl

/-- **A checkpoint ends**, and the writer leaves its epoch. -/
theorem Valid.finish (hw : w.Valid e) (h : r.Sound (w.buffer.toList ++ out) e) :
    Ends w.finish r fun answer r' => ∃ n r₁, answer = .ok n ∧ r' = w.left r₁ ∧
      Recorder.Trades r (w.buffer.toList ++ out) r₁ out e ⟨[], (w.lastPiece? r.clock).toList⟩ ∧
      ∀ b run, w.Holds b run e → n = w.written + w.lastSize run := by
  have hclose : Ends w.close r fun answer r₁ => ∃ n, answer = .ok n ∧
      Recorder.Trades r (w.buffer.toList ++ out) r₁ out e ⟨[], (w.lastPiece? r.clock).toList⟩ ∧
      ∀ b run, w.Holds b run e → n = w.written + w.lastSize run := by
    rcases hw with hw | ⟨b, run, hw⟩
    · rw [hw.buffer] at h ⊢
      rw [hw.lastPiece?_eq]
      refine Ends.of_run hw.runOn_close ⟨0, rfl, .refl h, ?_⟩
      exact fun b run hb => absurd hb.alive hw.dropped_ne
    · rw [hw.buffer] at h ⊢
      refine (hw.close h).mono ?_
      rintro answer r₁ ⟨rfl, ht⟩
      refine ⟨_, rfl, ht, ?_⟩
      intro b' run' hw'
      obtain rfl : b = b' := Option.some.inj (hw.buffer.symm.trans hw'.buffer)
      rw [lastSize, lastSize, hw.length_pending.symm.trans hw'.length_pending]
  unfold Writer.finish
  refine Ends.attempt hclose ?_
  rintro _ r₁ ⟨n, rfl, ht, hn⟩
  refine Ends.after (w.runOn_unpin r₁) ?_
  exact Ends.of_run (Fallible.runOn_pure _ _) ⟨n, r₁, rfl, rfl, ht, hn⟩

/-- **A writer is abandoned**: its run is lost. -/
theorem Valid.abandon (hw : w.Valid e) (h : r.Sound (w.buffer.toList ++ out) e) :
    Ends w.abandon r fun answer r' => ∃ r₁, answer = .ok () ∧ r' = w.left r₁ ∧
      Recorder.Trades r (w.buffer.toList ++ out) r₁ out e {} := by
  unfold Writer.abandon
  refine Ends.attempt (ends_releaseBuffer h fun _ hb => hw.owner hb) ?_
  rintro _ r₁ ⟨-, ht⟩
  exact Ends.of_run (w.runOn_unpin r₁) ⟨r₁, rfl, rfl, ht⟩

end Writer

end TraceRecorder
