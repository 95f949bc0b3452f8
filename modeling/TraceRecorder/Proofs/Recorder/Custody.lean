/-
# Who holds the buffers of a recorder

A recorder is sound if its three pools are, if they hold nothing but whole entries of one epoch,
and if the counters of made and given up buffers agree with what is there (`Recorder.Sound`).  As
for a pool, `out` are the buffers that writers and drains hold.

What a writer does with its buffers is a trade between the pools and those who hold buffers:
buffers change places and entries are added, but no entry that was there is lost or doubled.
`Trades` is this relation, and it is transitive (`Trades.trans`).
-/
import TraceRecorder.Proofs.Chunk.Pieces
import TraceRecorder.Proofs.Outcome
import TraceRecorder.Proofs.Pool.Custody

namespace TraceRecorder

open Fallible (Ends)

/-! ## 1. Loads -/

/-- What a buffer carries: committed bytes, tagged with their epoch. -/
structure Load where
  bytes : Bytes
  epoch : Epoch
  deriving DecidableEq

/-- A load is in order if it is made of whole entries of the epoch. -/
structure Load.InOrder (l : Load) (e : Epoch) : Prop where
  row : Entry.IsRow l.bytes
  epoch : l.epoch = e

def Load.entries (l : Load) : List Bytes := Entry.split l.bytes

namespace Buffer

/-- The load of a buffer, if it carries anything. -/
def load? (b : Buffer) : Option Load :=
  if b.isEmpty then none else some ⟨b.committed.bytes, b.epoch⟩

/-- **The entries that are committed in a buffer.** -/
def entries (b : Buffer) : List Bytes := Entry.split b.committed.bytes

theorem isEmpty_iff {b : Buffer} : b.isEmpty = true ↔ b.committed.bytes = [] := by
  rw [isEmpty, used, beq_iff_eq, ← Tape.length_bytes, List.length_eq_zero_iff]

theorem load?_of_isEmpty {b : Buffer} (h : b.isEmpty = true) : b.load? = none := if_pos h

theorem load?_of_not_isEmpty {b : Buffer} (h : b.isEmpty = false) :
    b.load? = some ⟨b.committed.bytes, b.epoch⟩ := by
  rw [load?, if_neg]
  simp [h]

theorem loads_cons (b : Buffer) (bs : List Buffer) :
    (b :: bs).filterMap load? = b.load?.toList ++ bs.filterMap load? := by
  cases h : b.load? <;> simp [h]

theorem flatMap_entries (bs : List Buffer) :
    bs.flatMap entries = (bs.filterMap load?).flatMap Load.entries := by
  induction bs with
  | nil => rfl
  | cons b bs ih =>
    rw [List.flatMap_cons, ih]
    by_cases hb : b.isEmpty = true
    · rw [List.filterMap_cons_none (load?_of_isEmpty hb), entries, isEmpty_iff.1 hb,
        Entry.split_nil, List.nil_append]
    · have hb : b.isEmpty = false := by simpa using hb
      rw [List.filterMap_cons_some (load?_of_not_isEmpty hb), List.flatMap_cons]
      rfl

end Buffer

/-- Everything that a drain may take from a pool: full buffers, then bound ones. -/
def Space.pooled (s : Space) : List Buffer := s.full.reverse ++ s.boundBuffers

theorem Space.pooled_eq_of_visible_eq {s s' : Space} (h : s'.visible = s.visible) :
    s'.pooled = s.pooled := by
  show s'.visible.pooled = s.visible.pooled
  rw [h]

theorem Space.kind_eq_of_visible_eq {s s' : Space} (h : s'.visible = s.visible) :
    s'.kind = s.kind := by
  show s'.visible.kind = s.visible.kind
  rw [h]

theorem Space.options_eq_of_visible_eq {s s' : Space} (h : s'.visible = s.visible) :
    s'.options = s.options := by
  show s'.visible.options = s.visible.options
  rw [h]

/-! ## 2. Sound recorders -/

namespace Recorder

/-- **Everything that a drain may take**, in the order in which drains visit it. -/
def pooled (r : Recorder) : List Buffer := BufferKind.all.flatMap fun kind => (r.space kind).pooled

def live (r : Recorder) : Nat :=
  r.global.arena.live + r.threadLocal.arena.live + r.virtualThreadLocal.arena.live

/-- The loads of all buffers, those that are `out` among them. -/
def loads (r : Recorder) (out : List Buffer) : List Load := (r.pooled ++ out).filterMap Buffer.load?

/-- **The entries of all buffers**, those that are `out` among them. -/
def entries (r : Recorder) (out : List Buffer) : List Bytes :=
  (r.pooled ++ out).flatMap Buffer.entries

/-- A recorder apart from its pools and counters. -/
def surroundings (r : Recorder) : Recorder :=
  { r with
    global := .create .global default
    threadLocal := .create .global default
    virtualThreadLocal := .create .global default
    stats := {} }

def ofKind (kind : BufferKind) (out : List Buffer) : List Buffer :=
  out.filter fun b => b.kind == kind

/-- **Each buffer is in one place**, and all that is committed in it is whole entries of one
epoch. -/
structure Sound (r : Recorder) (out : List Buffer) (e : Epoch) : Prop where
  pool : ∀ kind, (r.space kind).Sound (ofKind kind out)
  kind : ∀ kind, (r.space kind).kind = kind
  options : ∀ kind, (r.space kind).options = r.options.space kind
  counted : r.live + r.stats.buffersDeallocated = r.stats.buffersAllocated
  order : ∀ l ∈ r.loads out, l.InOrder e

theorem entries_eq (r : Recorder) (out : List Buffer) :
    r.entries out = (r.loads out).flatMap Load.entries := Buffer.flatMap_entries _

theorem entries_append (r : Recorder) (out lent : List Buffer) :
    r.entries (out ++ lent) = r.entries out ++ lent.flatMap Buffer.entries := by
  simp [entries]

@[simp] theorem stats_setSpace (r : Recorder) (kind : BufferKind) (s : Space) :
    (r.setSpace kind s).stats = r.stats := by cases kind <;> rfl

@[simp] theorem options_setSpace (r : Recorder) (kind : BufferKind) (s : Space) :
    (r.setSpace kind s).options = r.options := by cases kind <;> rfl

@[simp] theorem surroundings_setSpace (r : Recorder) (kind : BufferKind) (s : Space) :
    (r.setSpace kind s).surroundings = r.surroundings := by cases kind <;> rfl

section

variable {r r' : Recorder}

theorem options_eq_of_surroundings_eq (h : r'.surroundings = r.surroundings) :
    r'.options = r.options := (congrArg options h :)

theorem epoch_eq_of_surroundings_eq (h : r'.surroundings = r.surroundings) :
    r'.epoch = r.epoch := (congrArg epoch h :)

theorem sink_eq_of_surroundings_eq (h : r'.surroundings = r.surroundings) :
    r'.sink = r.sink := (congrArg sink h :)

theorem aborted_eq_of_surroundings_eq (h : r'.surroundings = r.surroundings) :
    r'.aborted = r.aborted := (congrArg aborted h :)

end

@[simp] theorem space_count (r : Recorder) (f : Stats → Stats) (kind : BufferKind) :
    (r.count f).space kind = r.space kind := by cases kind <;> rfl

@[simp] theorem space_moveEpoch (r : Recorder) (f : EpochController → EpochController)
    (kind : BufferKind) : (r.moveEpoch f).space kind = r.space kind := by cases kind <;> rfl

theorem pooled_eq_of_space_eq {r r' : Recorder} (h : ∀ kind, r'.space kind = r.space kind) :
    r'.pooled = r.pooled := by
  simp only [pooled, h]

@[simp] theorem pooled_count (r : Recorder) (f : Stats → Stats) :
    (r.count f).pooled = r.pooled := rfl

theorem live_setSpace (r : Recorder) (kind : BufferKind) (s : Space) :
    (r.setSpace kind s).live + (r.space kind).arena.live = r.live + s.arena.live := by
  cases kind <;> simp only [live, setSpace, space] <;> omega

theorem perm_pooled_setSpace (r : Recorder) (kind : BufferKind) (s : Space) :
    ((r.setSpace kind s).pooled ++ (r.space kind).pooled).Perm (r.pooled ++ s.pooled) := by
  rw [List.perm_iff_count]
  intro x
  cases kind <;>
    simp only [pooled, BufferKind.all, List.flatMap_cons, List.flatMap_nil, List.append_nil,
      List.count_append, setSpace, space] <;>
    omega

theorem pooled_setSpace_of_visible_eq {r : Recorder} {kind : BufferKind} {s : Space}
    (h : s.visible = (r.space kind).visible) : (r.setSpace kind s).pooled = r.pooled := by
  have hp := Space.pooled_eq_of_visible_eq h
  cases kind <;>
    simp only [pooled, BufferKind.all, List.flatMap_cons, List.flatMap_nil, setSpace,
      space] at hp ⊢ <;>
    rw [hp]

theorem ofKind_append (kind : BufferKind) (a b : List Buffer) :
    ofKind kind (a ++ b) = ofKind kind a ++ ofKind kind b := List.filter_append ..

theorem ofKind_of_all {kind : BufferKind} {bs : List Buffer} (h : ∀ b ∈ bs, b.kind = kind) :
    ofKind kind bs = bs := List.filter_eq_self.2 fun b hb => beq_iff_eq.2 (h b hb)

theorem ofKind_of_ne {kind other : BufferKind} {bs : List Buffer} (h : ∀ b ∈ bs, b.kind = kind)
    (hne : other ≠ kind) : ofKind other bs = [] := by
  refine List.filter_eq_nil_iff.2 ?_
  intro b hb
  simpa [h b hb] using hne.symm

namespace Sound

variable {r : Recorder} {out out' : List Buffer} {b : Buffer} {e : Epoch}

theorem perm (h : r.Sound out e) (hp : out.Perm out') : r.Sound out' e :=
  { h with
    pool := fun kind => (h.pool kind).perm (hp.filter _)
    order := by
      intro l hl
      exact h.order l (((hp.append_left _).filterMap _).mem_iff.2 hl) }

/-- What else a recorder holds is of no account. -/
theorem alike {r' : Recorder} (h : r.Sound out e) (hs : ∀ kind, r'.space kind = r.space kind)
    (ho : r'.options = r.options)
    (ha : r'.stats.buffersAllocated = r.stats.buffersAllocated)
    (hd : r'.stats.buffersDeallocated = r.stats.buffersDeallocated) : r'.Sound out e where
  pool kind := (hs kind).symm ▸ h.pool kind
  kind kind := (hs kind).symm ▸ h.kind kind
  options kind := by
    rw [hs, h.options, ho]
  counted := by
    have hlive : r'.live = r.live := by
      show (r'.space .global).arena.live + (r'.space .threadLocal).arena.live +
        (r'.space .virtualThreadLocal).arena.live = r.live
      rw [hs, hs, hs]
      rfl
    rw [hlive, ha, hd, h.counted]
  order := by
    rw [loads, pooled_eq_of_space_eq hs]
    exact h.order

theorem count (h : r.Sound out e) {f : Stats → Stats}
    (ha : (f r.stats).buffersAllocated = r.stats.buffersAllocated)
    (hd : (f r.stats).buffersDeallocated = r.stats.buffersDeallocated) :
    (r.count f).Sound out e := h.alike (space_count r f) rfl ha hd

theorem moveEpoch (h : r.Sound out e) (f : EpochController → EpochController) :
    (r.moveEpoch f).Sound out e := h.alike (space_moveEpoch r f) rfl rfl rfl

theorem pool_append {given : List Buffer} {kind : BufferKind} (h : r.Sound (given ++ out) e)
    (hg : ∀ b ∈ given, b.kind = kind) : (r.space kind).Sound (given ++ ofKind kind out) := by
  have hp := h.pool kind
  rwa [ofKind_append, ofKind_of_all hg] at hp

theorem pool_cons (h : r.Sound (b :: out) e) :
    (r.space b.kind).Sound (b :: ofKind b.kind out) :=
  h.pool_append (List.forall_mem_singleton.2 rfl)

theorem fits (h : r.Sound (b :: out) e) : b.Fits b.kind (r.options.space b.kind) := by
  have hf := h.pool_cons.fits_out
  rwa [h.kind, h.options] at hf

theorem boundBuffers_eq_nil (h : r.Sound out e) (kind : BufferKind) (hk : kind ≠ .threadLocal) :
    (r.space kind).boundBuffers = [] := by
  refine List.eq_nil_iff_forall_not_mem.2 ?_
  intro b hb
  obtain ⟨thread, hm⟩ := Space.mem_boundBuffers.1 hb
  exact hk ((h.kind kind).symm.trans ((h.pool kind).bound thread b hm).1)

end Sound

/-! ## 3. Trades -/

end Recorder

/-- Entries that writers publish. -/
structure Published where
  /-- Cut off as flushpoints. -/
  cut : List Bytes := []
  /-- The last ones of their checkpoints. -/
  last : List Bytes := []

namespace Published

/-- **All published entries.** -/
def entries (p : Published) : List Bytes := p.cut ++ p.last

instance : Append Published := ⟨fun p q => ⟨p.cut ++ q.cut, p.last ++ q.last⟩⟩

@[simp] theorem cut_append (p q : Published) : (p ++ q).cut = p.cut ++ q.cut := rfl

@[simp] theorem last_append (p q : Published) : (p ++ q).last = p.last ++ q.last := rfl

@[simp] theorem append_nothing (p : Published) : p ++ {} = p := by
  show Published.mk (p.cut ++ []) (p.last ++ []) = p
  rw [List.append_nil, List.append_nil]

theorem cut_append_last (cut last : List Bytes) :
    (⟨cut, []⟩ : Published) ++ ⟨[], last⟩ = ⟨cut, last⟩ := by
  show Published.mk (cut ++ []) last = ⟨cut, last⟩
  rw [List.append_nil]

theorem count_entries_append (p q : Published) (x : Bytes) :
    (p ++ q).entries.count x = p.entries.count x + q.entries.count x := by
  simp only [entries, cut_append, last_append, List.count_append]
  omega

end Published

namespace Recorder

/-- **Buffers change places and entries are published**; all entries that were there still are, and
so is all that is not in the pools. -/
structure Trades (r : Recorder) (out : List Buffer) (r' : Recorder) (out' : List Buffer) (e : Epoch)
    (p : Published) : Prop where
  sound : r'.Sound out' e
  surroundings : r'.surroundings = r.surroundings
  entries : ∀ x, (r'.entries out').count x = (r.entries out).count x + p.entries.count x
  cut : r'.stats.flushes = r.stats.flushes + p.cut.length
  last : r'.stats.checkpointsWritten = r.stats.checkpointsWritten + p.last.length

namespace Trades

variable {r r' r'' : Recorder} {out out' out'' : List Buffer} {e : Epoch} {p q : Published}

theorem refl (h : r.Sound out e) : Trades r out r out e {} := ⟨h, rfl, fun _ => rfl, rfl, rfl⟩

theorem epoch (h : Trades r out r' out' e p) : r'.epoch = r.epoch :=
  epoch_eq_of_surroundings_eq h.surroundings

/-- **One trade after the other.** -/
theorem trans (h : Trades r out r' out' e p) (h' : Trades r' out' r'' out'' e q) :
    Trades r out r'' out'' e (p ++ q) where
  sound := h'.sound
  surroundings := h'.surroundings.trans h.surroundings
  entries x := by
    rw [h'.entries, h.entries, Published.count_entries_append, Nat.add_assoc]
  cut := by
    rw [h'.cut, h.cut, Published.cut_append, List.length_append, Nat.add_assoc]
  last := by
    rw [h'.last, h.last, Published.last_append, List.length_append, Nat.add_assoc]

theorem nothing_trans (h : Trades r out r' out' e {}) (h' : Trades r' out' r'' out'' e p) :
    Trades r out r'' out'' e p := h.trans h'

theorem trans_nothing (h : Trades r out r' out' e p) (h' : Trades r' out' r'' out'' e {}) :
    Trades r out r'' out'' e p := Published.append_nothing p ▸ h.trans h'

theorem perm (h : Trades r out r' out' e p) (hp : out'.Perm out'') :
    Trades r out r' out'' e p :=
  { h with
    sound := h.sound.perm hp
    entries := by
      intro x
      rw [← h.entries]
      exact ((hp.append_left _).flatMap_right _).symm.count_eq x }

theorem perm_left (h : Trades r out r' out' e p) (hp : out''.Perm out) :
    Trades r out'' r' out' e p :=
  { h with
    entries := by
      intro x
      rw [h.entries]
      exact congrArg (· + _) (((hp.append_left _).flatMap_right _).symm.count_eq x) }

/-- **What a trade does, it does in any state of the epoch protocol.** -/
theorem moveEpoch (h : Trades r out r' out' e p) (f : EpochController → EpochController) :
    Trades (r.moveEpoch f) out (r'.moveEpoch f) out' e p :=
  { h with
    sound := h.sound.moveEpoch f
    surroundings := by
      have hs := congrArg (·.moveEpoch f) h.surroundings
      exact hs }

theorem count (h : Trades r out r' out' e p) {f : Stats → Stats}
    (ha : (f r'.stats).buffersAllocated = r'.stats.buffersAllocated)
    (hd : (f r'.stats).buffersDeallocated = r'.stats.buffersDeallocated)
    (hc : (f r'.stats).flushes = r'.stats.flushes)
    (hl : (f r'.stats).checkpointsWritten = r'.stats.checkpointsWritten) :
    Trades r out (r'.count f) out' e p where
  sound := h.sound.count ha hd
  surroundings := h.surroundings
  entries := h.entries
  cut := hc.trans h.cut
  last := hl.trans h.last

end Trades

/-- One pool is exchanged for another one, with other buffers out of it. -/
theorem Sound.put {r : Recorder} {e : Epoch} {kind : BufferKind} {s : Space} {f : Stats → Stats}
    (given taken rest : List Buffer) (h : r.Sound (given ++ rest) e)
    (hs : s.Sound (taken ++ ofKind kind rest))
    (hkind : s.kind = (r.space kind).kind) (ho : s.options = (r.space kind).options)
    (hg : ∀ b ∈ given, b.kind = kind)
    (hlive : s.arena.live + (f r.stats).buffersDeallocated + r.stats.buffersAllocated =
      (r.space kind).arena.live + r.stats.buffersDeallocated + (f r.stats).buffersAllocated)
    (hl : ∀ l ∈ (r.setSpace kind s).loads (taken ++ rest), l.InOrder e) :
    ((r.setSpace kind s).count f).Sound (taken ++ rest) e := by
  have ht : ∀ b ∈ taken, b.kind = kind := by
    intro b hb
    have hm : b ∈ s.buffers (taken ++ ofKind kind rest) :=
      Space.mem_buffers.2 (.inr (.inr (.inr (List.mem_append_left _ hb))))
    rw [(hs.fits b hm).kind, hkind, h.kind]
  refine ⟨?_, ?_, ?_, ?_, hl⟩
  · intro other
    rw [space_count]
    by_cases hk : other = kind
    · subst hk
      rwa [space_setSpace_self, ofKind_append, ofKind_of_all ht]
    · have hother := h.pool other
      rw [ofKind_append, ofKind_of_ne hg hk, List.nil_append] at hother
      rwa [space_setSpace_of_ne r s hk, ofKind_append, ofKind_of_ne ht hk, List.nil_append]
  · intro other
    rw [space_count]
    by_cases hk : other = kind
    · subst hk
      rw [space_setSpace_self, hkind, h.kind]
    · rw [space_setSpace_of_ne r s hk, h.kind]
  · intro other
    rw [space_count]
    by_cases hk : other = kind
    · subst hk
      rw [space_setSpace_self, ho, h.options]
      exact congrArg (·.space other) (options_setSpace r other s).symm
    · rw [space_setSpace_of_ne r s hk, h.options]
      exact congrArg (·.space other) (options_setSpace r kind s).symm
  · have hsum := live_setSpace r kind s
    have hcounted := h.counted
    show (r.setSpace kind s).live + (f (r.setSpace kind s).stats).buffersDeallocated =
      (f (r.setSpace kind s).stats).buffersAllocated
    rw [stats_setSpace]
    omega

/-- **A trade with one pool.**  The pool's own buffers and those that come out of it carry what the
pool and the buffers that go into it carried. -/
theorem Sound.trade {r : Recorder} {e : Epoch} {s : Space} {f : Stats → Stats} (kind : BufferKind)
    (given taken rest : List Buffer) (h : r.Sound (given ++ rest) e)
    (hs : s.Sound (taken ++ ofKind kind rest))
    (hkind : s.kind = (r.space kind).kind) (ho : s.options = (r.space kind).options)
    (hg : ∀ b ∈ given, b.kind = kind)
    (hlive : s.arena.live + (f r.stats).buffersDeallocated + r.stats.buffersAllocated =
      (r.space kind).arena.live + r.stats.buffersDeallocated + (f r.stats).buffersAllocated)
    (hp : ((s.pooled ++ taken).filterMap Buffer.load?).Perm
      (((r.space kind).pooled ++ given).filterMap Buffer.load?))
    (hc : (f r.stats).flushes = r.stats.flushes)
    (hl : (f r.stats).checkpointsWritten = r.stats.checkpointsWritten) :
    Trades r (given ++ rest) ((r.setSpace kind s).count f) (taken ++ rest) e {} := by
  have hloads : ((r.setSpace kind s).loads (taken ++ rest)).Perm (r.loads (given ++ rest)) := by
    have hq := (perm_pooled_setSpace r kind s).filterMap Buffer.load?
    rw [List.perm_iff_count] at hp hq ⊢
    intro x
    have hp := hp x
    have hq := hq x
    simp only [loads, List.filterMap_append, List.count_append] at hp hq ⊢
    omega
  refine ⟨?_, surroundings_setSpace r kind s, ?_, ?_, ?_⟩
  · exact Sound.put given taken rest h hs hkind ho hg hlive
      fun l hl => h.order l (hloads.mem_iff.1 hl)
  · intro x
    rw [entries_eq, entries_eq]
    exact (hloads.flatMap_right _).count_eq x
  · show (f (r.setSpace kind s).stats).flushes = _
    rw [stats_setSpace, hc]
    rfl
  · show (f (r.setSpace kind s).stats).checkpointsWritten = _
    rw [stats_setSpace, hl]
    rfl

end Recorder

end TraceRecorder
