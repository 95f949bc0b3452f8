/-
# Leases keep what they handle

Each operation on leases is a trade between the pools and those who hold buffers, so no entry is
lost by it or doubled:

* `Sound.lease`, `Sound.acquire`: one more buffer is out, or there is none to be had;
* `Sound.handOff`, `Sound.release`, `Sound.releaseThread`: a buffer comes back, full, bound or free;
* `Sound.renews`, `Sound.renew`: a buffer is exchanged for a larger one, and the pending bytes move
  there;
* `Sound.flush`: the pending bytes become an entry, and a buffer is exchanged for a fresh one.

The last two may find no buffer to go on with.  What was committed is in the pools also then.  Only
a refusal of memory leaves a pool in disorder, and it is passed on as the fault of the operation.
-/
import TraceRecorder.Proofs.Recorder.Custody

namespace TraceRecorder

open Fallible (Ends Keeps)

/-- What a renewal takes for the room that it needs: the sum as a 64-bit word. -/
def Buffer.needed (old : Buffer) (size : Nat) : Nat := (size + old.pending.length) % UInt64.size

theorem Buffer.needed_of_lt {old : Buffer} {size : Nat}
    (h : size + old.pending.length < UInt64.size) :
    old.needed size = size + old.pending.length := Nat.mod_eq_of_lt h

namespace Buffer

variable {fresh old : Buffer}

/-- **A fresh buffer has the room that is needed**, if that is a word. -/
theorem Fresh.room_of_needed {size : Nat} {e : Epoch} {owner : Owner} {o : RecorderOptions}
    {kind : BufferKind} (h : fresh.Fresh (o.renewalRequest kind (old.needed size)) e owner)
    (hword : size + old.pending.length < UInt64.size) :
    size + old.pending.length ≤ fresh.capacity := by
  have hroom := h.room
  rw [needed_of_lt hword] at hroom
  exact Nat.le_trans (Nat.le_max_left _ _) hroom

theorem lt_of_carry?_eq_none (hb : fresh.Clean) (h : fresh.carry? old = none) :
    fresh.capacity < old.pending.length := by
  rw [carry?, Option.map_eq_none_iff, append?] at h
  split at h
  · rename_i hlt
    rwa [hb.free, Tape.length_bytes] at hlt
  · cases h

theorem Clean.free_of_pending (hb : fresh.Clean) (pending : Tape) :
    ({ fresh with pending := pending } : Buffer).free = fresh.capacity - pending.length := by
  rw [Buffer.free, Buffer.position, hb.committed, Tape.length_empty, Nat.zero_add]

end Buffer

theorem Fault.not_isExhausted_of_endsThread {fault : Fault} (h : fault.endsThread = true) :
    fault.isExhausted = false := by
  have hm : ∀ m : MemoryFault, m.report.isExhausted = false := by
    intro m
    cases m <;> rfl
  unfold Fault.endsThread Fault.memory? at h
  split at h
  · exact hm _
  · exact hm _
  · cases h

theorem Fault.not_endsThread_of_isExhausted {fault : Fault} (h : fault.isExhausted = true) :
    fault.endsThread = false := by
  refine Bool.eq_false_iff.2 fun hends => ?_
  rw [not_isExhausted_of_endsThread hends] at h
  cases h

namespace Recorder

variable {r : Recorder} {out : List Buffer} {b : Buffer} {e : Epoch} {thread : ThreadId}

/-! ## 1. Buffers that change while they are out -/

/-- Who is out may change what a buffer holds, as long as it fits and is in order. -/
theorem Sound.replace {b' : Buffer} (h : r.Sound (b :: out) e) (hid : b'.id = b.id)
    (hf : b'.Fits b.kind (r.options.space b.kind)) (hl : ∀ l, b'.load? = some l → l.InOrder e) :
    r.Sound (b' :: out) e :=
  { h with
    pool := by
      intro kind
      by_cases hk : b.kind = kind
      · subst hk
        have hp := h.pool_cons
        have hfits : b'.Fits (r.space b.kind).kind (r.space b.kind).options := by
          rwa [h.kind, h.options]
        have hb : ∀ x ∈ [b'], x.kind = b.kind := List.forall_mem_singleton.2 hf.kind
        have hs := hp.replace hid hfits
        rwa [show b' :: out = [b'] ++ out from rfl, ofKind_append, ofKind_of_all hb]
      · have hp := h.pool kind
        have hb : ∀ x ∈ [b], x.kind = b.kind := List.forall_mem_singleton.2 rfl
        have hb' : ∀ x ∈ [b'], x.kind = b.kind := List.forall_mem_singleton.2 hf.kind
        rw [show b :: out = [b] ++ out from rfl, ofKind_append, ofKind_of_ne hb (Ne.symm hk)] at hp
        rwa [show b' :: out = [b'] ++ out from rfl, ofKind_append, ofKind_of_ne hb' (Ne.symm hk)]
    order := by
      intro l hm
      rw [loads, List.filterMap_append, List.mem_append, Buffer.loads_cons, List.mem_append] at hm
      rcases hm with hm | hm | hm
      · refine h.order l ?_
        rw [loads, List.filterMap_append]
        exact List.mem_append_left _ hm
      · exact hl l (Option.mem_toList.1 hm)
      · refine h.order l ?_
        rw [loads, List.filterMap_append, Buffer.loads_cons]
        exact List.mem_append_right _ (List.mem_append_right _ hm) }

theorem Sound.order_out (h : r.Sound (b :: out) e) {l : Load} (hl : b.load? = some l) :
    l.InOrder e := by
  refine h.order l ?_
  rw [loads, List.filterMap_append, Buffer.loads_cons, hl]
  exact List.mem_append_right _ List.mem_cons_self

theorem Sound.husk (h : r.Sound (b :: out) e) : r.Sound (b.husk :: out) e := by
  refine h.replace rfl h.fits.husk ?_
  intro l hl
  cases hl

theorem Sound.husks {buffers : List Buffer} (h : r.Sound (buffers ++ out) e) :
    r.Sound (buffers.map Buffer.husk ++ out) e := by
  induction buffers generalizing out with
  | nil => exact h
  | cons b rest ih =>
    have hback : r.Sound (rest ++ b.husk :: out) e := h.husk.perm List.perm_middle.symm
    exact (ih hback).perm List.perm_middle

theorem Sound.exchange {b' : Buffer} (h : r.Sound (b :: out) e) (hid : b'.id = b.id)
    (hf : b'.Fits b.kind (r.options.space b.kind)) (hl : b'.load? = b.load?) :
    Trades r (b :: out) r (b' :: out) e {} where
  sound := h.replace hid hf fun _ hm => h.order_out (hl ▸ hm)
  surroundings := rfl
  entries := by
    intro x
    rw [entries_eq, entries_eq, loads, loads, List.filterMap_append, List.filterMap_append,
      Buffer.loads_cons, Buffer.loads_cons, hl]
    rfl
  cut := rfl
  last := rfl

theorem Sound.rewind (h : r.Sound (b :: out) e) : Trades r (b :: out) r (b.rewind :: out) e {} :=
  h.exchange rfl h.fits.rewind rfl

theorem Sound.isRow_out (h : r.Sound (b :: out) e) : Entry.IsRow b.committed.bytes := by
  by_cases hb : b.isEmpty = true
  · rw [Buffer.isEmpty_iff.1 hb]
    exact Entry.isRow_nil
  · have hb : b.isEmpty = false := by simpa using hb
    exact (h.order_out (Buffer.load?_of_not_isEmpty hb)).row

theorem Sound.entries_commitAll (h : r.Sound (b :: out) e) (hw : Entry.Whole b.pending.bytes) :
    b.commitAll.entries = b.entries ++ [b.pending.bytes] := by
  have hbytes : b.commitAll.committed.bytes = b.committed.bytes ++ b.pending.bytes :=
    Tape.bytes_join _ _
  rw [Buffer.entries, hbytes, h.isRow_out.split_append, hw.split]
  rfl

/-- **The pending bytes of a buffer that is out become an entry.** -/
theorem Sound.commitAll (h : r.Sound (b :: out) e) (he : b.epoch = e)
    (hw : Entry.Whole b.pending.bytes) :
    r.Sound (b.commitAll :: out) e ∧ b.commitAll.isEmpty = false ∧
      ∀ x, (r.entries (b.commitAll :: out)).count x =
        (r.entries (b :: out)).count x + [b.pending.bytes].count x := by
  have hbytes : b.commitAll.committed.bytes = b.committed.bytes ++ b.pending.bytes :=
    Tape.bytes_join _ _
  have hne : b.commitAll.isEmpty = false := by
    have hl : 0 < b.pending.bytes.length := Nat.lt_of_lt_of_le (by decide) hw.header
    rw [Bool.eq_false_iff, Ne, Buffer.isEmpty_iff, hbytes, List.append_eq_nil_iff]
    rintro ⟨-, hnil⟩
    rw [hnil] at hl
    cases hl
  have hf : b.commitAll.Fits b.kind (r.options.space b.kind) :=
    { h.fits with
      within := by
        have hin := h.fits.within
        simp only [Buffer.position, Buffer.commitAll, Tape.length_join, Tape.length_empty] at hin ⊢
        omega }
  refine ⟨h.replace rfl hf ?_, hne, ?_⟩
  · intro l hl
    rw [Buffer.load?_of_not_isEmpty hne] at hl
    cases hl
    refine ⟨?_, he⟩
    rw [hbytes]
    exact h.isRow_out.append hw.isRow
  · intro x
    have hentries := h.entries_commitAll hw
    simp only [entries, List.flatMap_append, List.flatMap_cons, hentries, List.count_append]
    omega

/-! ## 2. One pool -/

/-- **A lease keeps what its two parts keep**, whatever memory there is. -/
theorem keeps_lease_of {β : Type} {f : Recorder → β} {kind : BufferKind} {size : Nat} {e : Epoch}
    {thread : ThreadId}
    (hspace : ∀ grants, Keeps f (onSpace kind (Space.acquire grants size e (ownerFor kind thread))))
    (htally : ∀ how, Keeps f (tally (countLease how))) : Keeps f (lease kind size e thread) := by
  refine .get_bind fun r => ?_
  have hgranted : Keeps f (onSpace kind
      (Space.acquire r.host.memory.grants size e (ownerFor kind thread)) >>= fun leased => do
        tally (countLease leased.2)
        pure leased.1) :=
    (hspace _).bind fun leased => (htally leased.2).bind fun _ => .pure leased.1
  exact hgranted r

/-- **One more buffer is out**, or there is none to be had.  A refusal of memory wastes a slot. -/
theorem Sound.lease (h : r.Sound out e) (kind : BufferKind) (size : Nat) (thread : ThreadId) :
    Ends (lease kind size e thread) r fun answer r' => match answer with
      | .ok b => Trades r out r' (b :: out) e {} ∧ b.kind = kind ∧
          b.Fresh size e (ownerFor kind thread)
      | .error fault => (fault.isExhausted = true ∧ r' = r) ∨
          (fault.endsThread = true ∧ (r'.space kind).Wastes (ofKind kind out)) := by
  rcases (h.pool kind).acquire r.host.memory.grants size e (ownerFor kind thread) with
    ⟨b, how, s, hrun, hs, hb, hvis, hlive⟩ | ⟨fault, hrun, hf⟩ | ⟨m, s, hrun, hwastes⟩
  · have hr : Fallible.runOn (Recorder.lease kind size e thread) r =
        (.ok b, (r.setSpace kind s).count (countLease how)) := by
      simp [Recorder.lease, onSpace, hrun, tally]
    have hkind : b.kind = kind := by
      rw [hs.fits_out.kind, Space.kind_eq_of_visible_eq hvis, h.kind]
    refine Ends.of_run hr ⟨?_, hkind, hb⟩
    refine Sound.trade kind [] [b] out h hs (Space.kind_eq_of_visible_eq hvis)
      (Space.options_eq_of_visible_eq hvis) (by simp) ?_ ?_ ?_ ?_
    · rcases how with _ | _ | _ <;>
        simp only [countLease, Acquired.givenUp, Acquired.made] at hlive ⊢ <;>
        simp at hlive ⊢ <;> omega
    · have hempty : b.isEmpty = true := by
        rw [Buffer.isEmpty_iff, hb.clean.committed]
        rfl
      rw [List.filterMap_append, List.filterMap_cons_none (Buffer.load?_of_isEmpty hempty),
        Space.pooled_eq_of_visible_eq hvis]
      simp
    · rcases how with _ | _ | _ <;> rfl
    · rcases how with _ | _ | _ <;> rfl
  · have hr : Fallible.runOn (Recorder.lease kind size e thread) r =
        (.error (.pool fault), r.setSpace kind (r.space kind)) := by
      simp [Recorder.lease, onSpace, hrun]
    refine Ends.of_run hr (.inl ⟨hf, ?_⟩)
    cases kind <;> rfl
  · have hr : Fallible.runOn (Recorder.lease kind size e thread) r =
        (.error (.pool (.memory m)), r.setSpace kind s) := by
      simp [Recorder.lease, onSpace, hrun]
    refine Ends.of_run hr (.inr ⟨rfl, ?_⟩)
    rwa [space_setSpace_self]

/-- **What comes back to the pools**: some buffers are free again, and the others are given up. -/
structure Regains (r r' : Recorder) (buffers kept gone : List Buffer) : Prop where
  all : (kept ++ gone).Perm buffers
  free : ∀ kind, (r'.space kind).free.toList =
    (r.space kind).free.toList ++ (ofKind kind kept).map Buffer.husk
  visible : ∀ kind, (r'.space kind).visible = (r.space kind).visible
  counted : r'.stats.buffersDeallocated = r.stats.buffersDeallocated + gone.length

theorem Regains.trans {r r' r'' : Recorder} {buffers kept gone buffers' kept' gone' : List Buffer}
    (h : r.Regains r' buffers kept gone) (h' : r'.Regains r'' buffers' kept' gone') :
    r.Regains r'' (buffers ++ buffers') (kept ++ kept') (gone ++ gone') where
  all := by
    refine List.Perm.trans ?_ (h.all.append h'.all)
    rw [List.append_assoc, List.append_assoc]
    refine List.Perm.append_left kept ?_
    rw [← List.append_assoc, ← List.append_assoc]
    exact List.perm_append_comm.append_right gone'
  free kind := by
    rw [h'.free, h.free, ofKind_append, List.map_append, List.append_assoc]
  visible kind := (h'.visible kind).trans (h.visible kind)
  counted := by
    rw [h'.counted, h.counted, List.length_append, Nat.add_assoc]

/-- **One pool takes some buffers back**, and gives up the others.  Those that it keeps stand behind
its free buffers with nothing in them, and those that it gives up are counted. -/
theorem regains_setSpace {kind : BufferKind} {s : Space} {buffers kept gone : List Buffer}
    (hall : (kept ++ gone).Perm buffers) (hk : ∀ b ∈ kept, b.kind = kind)
    (hfree : s.free.toList = (r.space kind).free.toList ++ kept.map Buffer.husk)
    (hvis : s.visible = (r.space kind).visible) :
    r.Regains ((r.setSpace kind s).count fun st =>
      { st with buffersDeallocated := st.buffersDeallocated + gone.length }) buffers kept gone where
  all := hall
  free other := by
    rw [space_count]
    by_cases ho : other = kind
    · subst ho
      rw [space_setSpace_self, ofKind_of_all hk, hfree]
    · rw [space_setSpace_of_ne r s ho, ofKind_of_ne hk ho, List.map_nil, List.append_nil]
  visible other := by
    rw [space_count]
    by_cases ho : other = kind
    · subst ho
      rw [space_setSpace_self, hvis]
    · rw [space_setSpace_of_ne r s ho]
  counted := by
    show (r.setSpace kind s).stats.buffersDeallocated + gone.length = _
    rw [stats_setSpace]

/-- **Buffers that are out come back**, and what they carried is gone.  The pool of their kind keeps
as many as it has room for. -/
theorem Sound.reclaim (kind : BufferKind) (buffers : List Buffer)
    (h : r.Sound (buffers.map Buffer.husk ++ out) e) (hk : ∀ b ∈ buffers, b.kind = kind) :
    Ends (reclaim kind buffers) r fun answer r' => answer = .ok () ∧ r'.Sound out e ∧
      r'.pooled = r.pooled ∧ r'.surroundings = r.surroundings ∧
      ∃ kept gone, r.Regains r' buffers kept gone ∧ r'.stats =
        { r.stats with buffersDeallocated := r.stats.buffersDeallocated + gone.length } := by
  have hhusks : ∀ b ∈ buffers.map Buffer.husk, b.kind = kind := by
    intro b hb
    obtain ⟨x, hx, rfl⟩ := List.mem_map.1 hb
    exact hk x hx
  obtain ⟨givenUp, s, hrun, hs, hvis, hlive, hfree, hgiven⟩ := (h.pool_append hhusks).reclaim
  rw [Space.reclaim_husks] at hrun
  rw [← List.map_drop, List.length_map] at hgiven
  rw [← List.map_take, List.map_map] at hfree
  subst hgiven
  let kept := buffers.take (r.space kind).vacancies
  let gone := buffers.drop (r.space kind).vacancies
  have hr : Fallible.runOn (Recorder.reclaim kind buffers) r =
      (.ok (), (r.setSpace kind s).count fun st =>
        { st with buffersDeallocated := st.buffersDeallocated + gone.length }) := by
    simp [Recorder.reclaim, onSpace, hrun, tally, gone]
  have hpooled := pooled_setSpace_of_visible_eq hvis
  have hregains := regains_setSpace (List.Perm.of_eq (List.take_append_drop _ buffers))
    (fun b hb => hk b (List.mem_of_mem_take hb)) hfree hvis
  refine Ends.of_run hr ⟨rfl, ?_, hpooled, surroundings_setSpace r kind s, kept, gone, hregains, ?_⟩
  · -- This is no trade, as what the buffers carried is gone.
    refine Sound.put (buffers.map Buffer.husk) [] out h hs (Space.kind_eq_of_visible_eq hvis)
      (Space.options_eq_of_visible_eq hvis) hhusks ?_ ?_
    · show s.arena.live + (r.stats.buffersDeallocated + gone.length) + r.stats.buffersAllocated =
        (r.space kind).arena.live + r.stats.buffersDeallocated + r.stats.buffersAllocated
      have hlive : s.arena.live + gone.length = (r.space kind).arena.live := hlive
      omega
    · intro l hl
      refine h.order l ?_
      rw [List.nil_append, loads, hpooled, List.filterMap_append] at hl
      rw [loads, List.filterMap_append, List.filterMap_append]
      refine List.mem_append.2 ((List.mem_append.1 hl).imp id ?_)
      exact List.mem_append_right _
  · show { (r.setSpace kind s).stats with
      buffersDeallocated := (r.setSpace kind s).stats.buffersDeallocated + gone.length } = _
    rw [stats_setSpace]

/-- **A lease ends**: what was committed in the buffer is pooled, and if nothing was the buffer is
free or given up.  No entry comes or goes by it. -/
theorem Sound.handOff (h : r.Sound (b :: out) e) :
    Ends (handOff b) r fun answer r' => answer = .ok () ∧ Trades r (b :: out) r' out e {} := by
  unfold Recorder.handOff
  by_cases hb : b.isEmpty = true
  · rw [if_pos hb]
    refine (Sound.reclaim b.kind [b] h.husk (List.forall_mem_singleton.2 rfl)).mono ?_
    rintro answer r' ⟨rfl, hs, hpooled, hsur, -, gone, -, hstats⟩
    refine ⟨rfl, hs, hsur, ?_, ?_, ?_⟩
    · intro x
      rw [entries_eq, entries_eq, loads, loads, hpooled, List.filterMap_append,
        List.filterMap_append, List.filterMap_cons_none (Buffer.load?_of_isEmpty hb)]
      rfl
    · rw [hstats]
      rfl
    · rw [hstats]
      rfl
  · rw [if_neg hb]
    have hb : b.isEmpty = false := by simpa using hb
    obtain ⟨a, hrun, hs, hlive⟩ := h.pool_cons.registerFull hb
    refine Ends.of_run (a := .ok ())
      (by simp only [registerFull, onSpace, Fallible.runOn_zoom, hrun]; rfl) ⟨rfl, ?_⟩
    refine Sound.trade (f := id) b.kind [b] [] out h hs rfl rfl (List.forall_mem_singleton.2 rfl)
      ?_ ?_ rfl rfl
    · show a.live + _ + _ = _ + _ + _
      rw [hlive]
      rfl
    · have hload : b.rewind.retire.load? = b.load? := rfl
      rw [List.perm_iff_count]
      intro x
      simp only [Space.pooled, List.reverse_cons, List.filterMap_append, List.count_append,
        Buffer.loads_cons, List.filterMap_nil, List.count_nil, hload, Space.boundBuffers]
      omega

/-! ## 3. Bindings -/

/-- **A thread's binding is exchanged**: what was bound goes out, and what was out may be bound. -/
theorem Sound.bind {o : Option Buffer} (thread : ThreadId) (h : r.Sound (o.toList ++ out) e)
    (ho : ∀ b, o = some b → b.kind = .threadLocal ∧ b.Kept thread) :
    Trades r (o.toList ++ out) { r with threadLocal := r.threadLocal.bind thread o }
      ((r.threadLocal.bound? thread).toList ++ out) e {} := by
  have hk : ∀ b ∈ o.toList, b.kind = .threadLocal :=
    fun b hb => (ho b (Option.mem_toList.1 hb)).1
  have hs := (h.pool_append hk).bind thread fun b hb =>
    ⟨h.kind .threadLocal, (ho b hb).2⟩
  refine Sound.trade (f := id) .threadLocal o.toList _ out h hs rfl rfl hk rfl ?_ rfl rfl
  have hp := (Space.perm_bind (h.pool .threadLocal).ordered thread o).filterMap Buffer.load?
  rw [List.perm_iff_count] at hp ⊢
  intro x
  have hp := hp x
  simp only [Space.pooled, List.filterMap_append, List.count_append] at hp ⊢
  simp only [Space.bind, space] at hp ⊢
  omega

/-- **A carrier thread's bound buffer goes out.** -/
theorem Sound.takeBinding (h : r.Sound out e) (thread : ThreadId) :
    Ends (takeBinding thread) r fun answer r' => ∃ o : Option Buffer, answer = .ok o ∧
      Trades r out r' (o.toList ++ out) e {} ∧
      ∀ b, o = some b → b.kind = .threadLocal ∧ b.Kept thread := by
  refine Ends.of_run rfl ⟨r.threadLocal.bound? thread, rfl, ?_, ?_⟩
  · exact Sound.bind (o := none) thread h fun _ hb => by cases hb
  · intro b hb
    have hm : (thread, some b) ∈ r.threadLocal.bindings :=
      Dict.mem_of_find? (Option.join_eq_some_iff.1 hb)
    have hkept := (h.pool .threadLocal).bound thread b hm
    have hin : b ∈ r.threadLocal.buffers (ofKind .threadLocal out) :=
      Space.mem_buffers.2 (.inr (.inr (.inl (Space.mem_boundBuffers.2 ⟨thread, hm⟩))))
    exact ⟨((h.pool .threadLocal).fits b hin).kind.trans hkept.1, hkept.2⟩

/-- **A writer gives its buffer back**, and it is bound to its thread, full or free.  The buffer
that was bound before is handed off.  In all cases what was committed is pooled. -/
theorem Sound.release (h : r.Sound (b :: out) e)
    (ho : b.kind = .threadLocal → b.owner = .thread thread) :
    Ends (release b thread) r fun answer r' =>
      answer = .ok () ∧ Trades r (b :: out) r' out e {} := by
  have hrewind := h.rewind
  unfold Recorder.release
  refine Ends.after (Fallible.runOn_get r) ?_
  by_cases hc : b.rewind.kind = .threadLocal ∧ b.rewind.epoch = r.epoch.current ∧
      keepBoundRoom ≤ b.rewind.free
  · have hbind := Sound.bind (o := some b.rewind) thread hrewind.sound (by
      rintro _ ⟨⟩
      exact ⟨hc.1, ho hc.1, rfl, hc.2.2⟩)
    rw [if_pos hc]
    refine Ends.after (Fallible.runOn_set _ _) ?_
    cases hd : r.threadLocal.bound? thread with
    | none =>
      rw [hd] at hbind
      exact Ends.of_run (Fallible.runOn_pure _ _) ⟨rfl, hrewind.nothing_trans hbind⟩
    | some displaced =>
      rw [hd] at hbind
      refine (Sound.handOff hbind.sound).mono ?_
      rintro answer r' ⟨rfl, ht⟩
      exact ⟨rfl, hrewind.nothing_trans (hbind.nothing_trans ht)⟩
  · rw [if_neg hc]
    refine (Sound.handOff hrewind.sound).mono ?_
    rintro answer r' ⟨rfl, ht⟩
    exact ⟨rfl, hrewind.nothing_trans ht⟩

theorem Sound.unbind (h : r.Sound out e) (thread : ThreadId) :
    Trades r out { r with threadLocal := r.threadLocal.unbind thread }
      ((r.threadLocal.bound? thread).toList ++ out) e {} := by
  have hs := (h.pool .threadLocal).unbind thread
  refine Sound.trade (f := id) .threadLocal [] _ out h hs rfl rfl (by simp) rfl ?_ rfl rfl
  have hp := (Space.perm_unbind (h.pool .threadLocal).ordered thread).filterMap Buffer.load?
  rw [List.perm_iff_count] at hp ⊢
  intro x
  have hp := hp x
  simp only [Space.pooled, List.filterMap_append, List.count_append, List.append_nil] at hp ⊢
  simp only [Space.unbind, space] at hp ⊢
  omega

/-- **A carrier thread ends**, and the lease of its bound buffer with it. -/
theorem Sound.releaseThread (h : r.Sound out e) (thread : ThreadId) :
    Ends (releaseThread thread) r fun answer r' =>
      answer = .ok () ∧ Trades r out r' out e {} := by
  have ht := h.unbind thread
  unfold Recorder.releaseThread
  refine Ends.after (Fallible.runOn_get r) (Ends.after (Fallible.runOn_set _ _) ?_)
  cases hd : r.threadLocal.bound? thread with
  | none =>
    rw [hd] at ht
    exact Ends.of_run (Fallible.runOn_pure _ _) ⟨rfl, ht⟩
  | some b =>
    rw [hd] at ht
    refine (Sound.handOff ht.sound).mono ?_
    rintro answer r' ⟨rfl, ht'⟩
    exact ⟨rfl, ht.nothing_trans ht'⟩

/-! ## 4. Buffers for writers -/

end Recorder

/-- A buffer that a writer can begin in. -/
structure Buffer.Ready (b : Buffer) (kind : BufferKind) (thread : ThreadId) (e : Epoch)
    (size : Nat) : Prop where
  kind : b.kind = kind
  pending : b.pending = .empty
  epoch : b.epoch = e
  owner : b.kind = .threadLocal → b.owner = .thread thread
  room : size ≤ b.free

theorem Buffer.Fresh.ready {b : Buffer} {kind : BufferKind} {thread : ThreadId} {e : Epoch}
    {size : Nat} (h : b.Fresh size e (Recorder.ownerFor kind thread)) (hk : b.kind = kind) :
    b.Ready kind thread e size where
  kind := hk
  pending := h.clean.pending
  epoch := h.epoch
  owner := by
    intro hl
    rw [h.owner, ← hk, hl]
    rfl
  room := h.clean.free ▸ h.room

namespace Recorder

theorem Sound.leaseReady (h : r.Sound out e) (kind : BufferKind) (size : Nat) (thread : ThreadId) :
    Ends (Recorder.lease kind size e thread) r fun answer r' => match answer with
      | .ok b => Trades r out r' (b :: out) e {} ∧ b.Ready kind thread e size
      | .error fault => fault.endsThread = true ∨
          (fault.isExhausted = true ∧ Trades r out r' out e {}) := by
  refine (h.lease kind size thread).mono ?_
  rintro (fault | b) r' hpost
  · rcases hpost with ⟨hf, rfl⟩ | ⟨hf, -⟩
    · exact .inr ⟨hf, .refl h⟩
    · exact .inl hf
  · obtain ⟨ht, hk, hb⟩ := hpost
    exact ⟨ht, hb.ready hk⟩

/-- **A writer's first buffer**, or none.  It is of the epoch that was chosen, has room for what was
asked for and nothing pending; what its thread had committed in it before is still there.  If there
is none, no buffer goes missing, unless memory is refused. -/
theorem Sound.acquire (h : r.Sound out e) (thread : ThreadId) (kind : BufferKind)
    {duringDrain : Bool} (he : Fallible.runOn (leaseEpoch duringDrain) r = (.ok e, r))
    (size : Nat) :
    Ends (acquire thread kind duringDrain size) r fun answer r' => match answer with
      | .ok b => Trades r out r' (b :: out) e {} ∧ b.Ready kind thread e size
      | .error fault => fault.endsThread = true ∨
          (fault.isExhausted = true ∧ Trades r out r' out e {}) := by
  unfold Recorder.acquire
  refine Ends.after he ?_
  by_cases hk : kind = .threadLocal
  · rw [if_pos hk]
    refine (h.takeBinding thread).bind ?_ ?_
    · rintro o r₁ ⟨o', ho', ht, hkept⟩
      cases ho'
      cases o with
      | none =>
        refine (ht.sound.leaseReady kind size thread).mono ?_
        rintro (fault | b) r' hpost
        · exact hpost.imp id (And.imp id ht.nothing_trans)
        · exact ⟨ht.nothing_trans hpost.1, hpost.2⟩
      | some b =>
        obtain ⟨hbk, hb⟩ := hkept b rfl
        by_cases hc : b.epoch = e ∧ size ≤ b.free
        · dsimp only
          rw [if_pos hc]
          exact Ends.of_run (Fallible.runOn_pure _ _)
            ⟨ht, hbk.trans hk.symm, hb.pending, hc.1, fun _ => hb.owner, hc.2⟩
        · dsimp only
          rw [if_neg hc]
          refine (Sound.handOff ht.sound).next fun r₂ ht₂ => ?_
          refine (ht₂.sound.leaseReady kind size thread).mono ?_
          rintro (fault | b) r' hpost
          · exact hpost.imp id (And.imp id (ht.nothing_trans ht₂).nothing_trans)
          · exact ⟨(ht.nothing_trans ht₂).nothing_trans hpost.1, hpost.2⟩
    · rintro fault r₁ ⟨o', ho', -⟩
      cases ho'
  · rw [if_neg hk]
    exact h.leaseReady kind size thread

/-- Pending bytes that fit into a fresh buffer can move there. -/
theorem Sound.carry {fresh old : Buffer} {moved : Buffer × Buffer}
    (h : r.Sound (fresh :: old :: out) e) (hf : fresh.Clean)
    (hm : fresh.carry? old = some moved) :
    moved = ({ fresh with pending := old.pending }, old.rewind) ∧
      Trades r (fresh :: old :: out) r (old.rewind :: moved.1 :: out) e {} := by
  have hroom : old.pending.length ≤ fresh.free ∧
      moved = ({ fresh with pending := fresh.pending.append old.pending.bytes }, old.rewind) := by
    unfold Buffer.carry? Buffer.append? at hm
    split at hm
    · cases hm
    · rename_i hlt
      rw [Tape.length_bytes] at hlt
      exact ⟨Nat.le_of_not_lt hlt, (Option.some.inj hm).symm⟩
  have hpending : fresh.pending.append old.pending.bytes = old.pending := by
    apply Tape.eq_of_bytes_eq
    rw [hf.pending, Tape.bytes_append, Tape.bytes_empty, List.nil_append]
  rw [hpending] at hroom
  obtain ⟨hroom, rfl⟩ := hroom
  refine ⟨rfl, ?_⟩
  have hfits : { fresh with pending := old.pending }.Fits fresh.kind (r.options.space fresh.kind) :=
    { h.fits with
      within := by
        rw [hf.free] at hroom
        simpa [Buffer.position, hf.committed] using hroom }
  have hgrown : Trades r (fresh :: old :: out) r
      ({ fresh with pending := old.pending } :: old :: out) e {} := h.exchange rfl hfits rfl
  have hswap := hgrown.perm (List.Perm.swap _ _ _)
  exact hswap.nothing_trans hswap.sound.rewind

/-- **The ways in which a renewal goes.** -/
inductive Renews (r : Recorder) (old : Buffer) (thread : ThreadId) (size : Nat)
    (kind : BufferKind) : Except Fault Buffer → Recorder → Prop
  /-- Without a fresh buffer the old one comes back. -/
  | refused {fault : Fault} {r' : Recorder}
      (hlease : Fallible.runOn (Recorder.lease kind
        (r.options.renewalRequest kind (old.needed size)) old.epoch thread) r = (.error fault, r))
      (hf : fault.isExhausted = true)
      (hold : Fallible.runOn (Recorder.handOff old.rewind) r = (.ok (), r')) :
      Renews r old thread size kind (.error fault) r'
  /-- Without memory the thread ends there. -/
  | ended {fault : Fault} {r' : Recorder}
      (hlease : Fallible.runOn (Recorder.lease kind
        (r.options.renewalRequest kind (old.needed size)) old.epoch thread) r = (.error fault, r'))
      (hf : fault.endsThread = true) :
      Renews r old thread size kind (.error fault) r'
  /-- A fresh buffer that is too small comes back behind the old one. -/
  | small {fresh : Buffer} {r₁ r₂ r' : Recorder}
      (hlease : Fallible.runOn (Recorder.lease kind
        (r.options.renewalRequest kind (old.needed size)) old.epoch thread) r = (.ok fresh, r₁))
      (hcarry : fresh.carry? old = none)
      (hold : Fallible.runOn (Recorder.handOff old) r₁ = (.ok (), r₂))
      (hback : Fallible.runOn (Recorder.handOff fresh) r₂ = (.ok (), r')) :
      Renews r old thread size kind (.error (.recorder .renewalTooSmall)) r'
  /-- Any other takes the pending bytes. -/
  | grown {fresh : Buffer} {r₁ r' : Recorder}
      (hlease : Fallible.runOn (Recorder.lease kind
        (r.options.renewalRequest kind (old.needed size)) old.epoch thread) r = (.ok fresh, r₁))
      (hcarry : fresh.carry? old = some ({ fresh with pending := old.pending }, old.rewind))
      (hold : Fallible.runOn (Recorder.handOff old.rewind) r₁ = (.ok (), r')) :
      Renews r old thread size kind (.ok { fresh with pending := old.pending })
        (r'.count fun s => { s with renewals := s.renewals + 1 })

/-- **A renewal goes in one of the ways that `Renews` lists**: the pool has nothing, memory is
refused, the fresh buffer is too small, or the pending bytes have moved. -/
theorem Sound.renews {old : Buffer} (h : r.Sound (old :: out) old.epoch) (thread : ThreadId)
    (size : Nat) (kind : BufferKind) :
    Ends (Recorder.renew old thread size kind) r (r.Renews old thread size kind) := by
  unfold Recorder.renew
  refine Ends.after (Fallible.runOn_get r) ?_
  refine Ends.attempt ((Ends.self _ r).and (h.lease kind _ thread)) ?_
  rintro (fault | fresh) r₁ ⟨hlease, hpost⟩
  · dsimp only
    rcases hpost with ⟨hf, rfl⟩ | ⟨hf, -⟩
    · rw [if_neg (by simp [Fault.not_endsThread_of_isExhausted hf])]
      rcases hold : Fallible.runOn (Recorder.handOff old.rewind) r₁ with ⟨answer, r'⟩
      obtain ⟨rfl, -⟩ := (Sound.handOff h.rewind.sound).run_eq hold
      exact Ends.after hold (Ends.of_run (Fallible.runOn_throw _ _) (.refused hlease hf hold))
    · rw [if_pos hf]
      exact Ends.of_run (Fallible.runOn_throw _ _) (.ended hlease hf)
  · obtain ⟨ht, -, hb⟩ := hpost
    dsimp only
    cases hcarry : fresh.carry? old with
    | none =>
      rcases hold : Fallible.runOn (Recorder.handOff old) r₁ with ⟨answer, r₂⟩
      obtain ⟨rfl, ht₂⟩ :=
        (Sound.handOff (ht.perm (List.Perm.swap _ _ _)).sound).run_eq hold
      rcases hback : Fallible.runOn (Recorder.handOff fresh) r₂ with ⟨answer, r'⟩
      obtain ⟨rfl, -⟩ := (Sound.handOff ht₂.sound).run_eq hback
      exact Ends.after hold (Ends.after hback
        (Ends.of_run (Fallible.runOn_throw _ _) (.small hlease hcarry hold hback)))
    | some moved =>
      obtain ⟨rfl, hmoved⟩ := ht.sound.carry hb.clean hcarry
      rcases hold : Fallible.runOn (Recorder.handOff old.rewind) r₁ with ⟨answer, r'⟩
      obtain ⟨rfl, -⟩ := (Sound.handOff hmoved.sound).run_eq hold
      exact Ends.after hold (Ends.after (Fallible.runOn_modify _ _)
        (Ends.of_run (Fallible.runOn_pure _ _) (.grown hlease hcarry hold)))

/-- **A buffer is exchanged for a larger one** with the same pending bytes, or it comes back. -/
theorem Sound.renew {old : Buffer} (h : r.Sound (old :: out) e) (he : old.epoch = e)
    (thread : ThreadId) (size : Nat) (kind : BufferKind) :
    Ends (renew old thread size kind) r fun answer r' => match answer with
      | .ok b => Trades r (old :: out) r' (b :: out) e {} ∧ b.kind = kind ∧
          b.committed = .empty ∧ b.pending = old.pending ∧ b.epoch = e ∧
          (b.kind = .threadLocal → b.owner = .thread thread)
      | .error fault => fault.endsThread = true ∨
          Trades r (old :: out) r' out e {} := by
  subst he
  refine (h.renews thread size kind).mono ?_
  intro answer r' hrenews
  cases hrenews with
  | refused _ _ hold =>
    -- What was committed comes back with the old one.
    obtain ⟨-, ht⟩ := (Sound.handOff h.rewind.sound).run_eq hold
    exact .inr (h.rewind.nothing_trans ht)
  | ended _ hf => exact .inl hf
  | small hlease _ hold hback =>
    obtain ⟨ht, -, -⟩ := (h.lease kind _ thread).run_eq hlease
    have hswap := ht.perm (List.Perm.swap _ _ _)
    obtain ⟨-, ht₂⟩ := (Sound.handOff hswap.sound).run_eq hold
    obtain ⟨-, ht₃⟩ := (Sound.handOff ht₂.sound).run_eq hback
    exact .inr (hswap.nothing_trans (ht₂.nothing_trans ht₃))
  | grown hlease hcarry hold =>
    obtain ⟨ht, hk, hb⟩ := (h.lease kind _ thread).run_eq hlease
    obtain ⟨-, hmoved⟩ := ht.sound.carry hb.clean hcarry
    obtain ⟨-, ht₂⟩ := (Sound.handOff hmoved.sound).run_eq hold
    refine ⟨?_, hk, hb.clean.committed, rfl, hb.epoch, (hb.ready hk).owner⟩
    exact (ht.nothing_trans (hmoved.nothing_trans ht₂)).count
      (f := fun s => { s with renewals := s.renewals + 1 }) rfl rfl rfl rfl

/-- What a flush does before it looks for another buffer. -/
def publish (old : Buffer) (used : Nat) : Action Unit := do
  registerFull (old.commit used)
  tally fun s => { s with flushes := s.flushes + 1 }

theorem flush_eq (old : Buffer) (used requested : Nat) (thread : ThreadId) :
    Recorder.flush old used requested thread = (do
      publish old used
      Recorder.lease old.kind requested old.epoch thread) := by
  unfold Recorder.flush publish
  simp only [bind_assoc]

theorem commit_length_pending (b : Buffer) : b.commit b.pending.length = b.commitAll := by
  have htake : b.pending.take b.pending.length = b.pending :=
    Tape.eq_of_bytes_eq (by rw [Tape.bytes_take, List.take_of_length_le (by simp)])
  have hdrop : b.pending.drop b.pending.length = .empty :=
    Tape.eq_of_bytes_eq (by rw [Tape.bytes_drop, List.drop_of_length_le (by simp)]; rfl)
  rw [Buffer.commit, htake, hdrop]
  rfl

theorem registerFull_eq_handOff {b : Buffer} (h : b.isEmpty = false) :
    registerFull b = Recorder.handOff b := by
  rw [Recorder.handOff, if_neg]
  simp [h]

/-- **The pending bytes of a buffer become an entry**, and the buffer is full. -/
theorem Sound.publish {old : Buffer} (h : r.Sound (old :: out) e) (he : old.epoch = e)
    (hw : Entry.Whole old.pending.bytes) :
    Ends (publish old old.pending.length) r fun answer r' => answer = .ok () ∧
      Trades r (old :: out) r' out e ⟨[old.pending.bytes], []⟩ := by
  subst he
  obtain ⟨hs, hne, hentries⟩ := h.commitAll rfl hw
  unfold Recorder.publish
  rw [commit_length_pending, registerFull_eq_handOff hne]
  refine (Sound.handOff hs).next fun r₁ ht₁ => ?_
  refine Ends.of_run (Fallible.runOn_modify _ _) ⟨rfl, ?_⟩
  exact
    { sound := ht₁.sound.count rfl rfl
      surroundings := ht₁.surroundings
      entries := fun x => (ht₁.entries x).trans (hentries x)
      cut := congrArg (· + 1) ht₁.cut
      last := ht₁.last }

/-- **The pending bytes of a buffer become an entry**, and a fresh buffer takes its place, if there
is one. -/
theorem Sound.flush {old : Buffer} (h : r.Sound (old :: out) e) (he : old.epoch = e)
    (hw : Entry.Whole old.pending.bytes) (requested : Nat) (thread : ThreadId) :
    Ends (flush old old.pending.length requested thread) r fun answer r' => match answer with
      | .ok b => Trades r (old :: out) r' (b :: out) e ⟨[old.pending.bytes], []⟩ ∧
          b.Ready old.kind thread e requested ∧ b.committed = .empty
      | .error fault => fault.endsThread = true ∨ (fault.isExhausted = true ∧
          Trades r (old :: out) r' out e ⟨[old.pending.bytes], []⟩) := by
  rw [flush_eq]
  refine (h.publish he hw).next fun r₁ ht => ?_
  rw [he]
  refine (ht.sound.lease old.kind requested thread).mono ?_
  rintro (fault | b) r' hpost
  · rcases hpost with ⟨hf, rfl⟩ | ⟨hf, -⟩
    · exact .inr ⟨hf, ht⟩
    · exact .inl hf
  · obtain ⟨ht', hk, hb⟩ := hpost
    exact ⟨ht.trans_nothing ht', hb.ready hk, hb.clean.committed⟩

end Recorder

end TraceRecorder
