/-
# Each buffer has one owner

`Space.Exclusive` says of a pool, and of the buffers that open writers have from it, that the slots
of the arena and the places where buffers are held say the same: each buffer is in one place, its
slot is in the state of that place, and there are no other slots in use.  `Reachable.exclusive`
says this of all three pools of every reachable run, and that the counters of made and given up
buffers agree with the number of buffers there are.
-/
import TraceRecorder.Proofs.Run.Steps

namespace TraceRecorder

namespace Space

/-- **A pool whose slots and places agree**, `out` being the buffers that open writers hold. -/
structure Exclusive (s : Space) (o : SpaceOptions) (kind : BufferKind) (out : List Buffer) :
    Prop where
  /-- No two buffers have the same id. -/
  distinct : ((s.buffers out).map Buffer.id).Nodup
  /-- The slots in use are those of the buffers, in the states of their places. -/
  slot : ∀ id state, (s.arena.state? id = some state ∧ state ≠ .vacant) ↔
    (state = .free ∧ ∃ b ∈ s.free.toList, b.id = id) ∨
    (state = .full ∧ ∃ b ∈ s.full, b.id = id) ∨
    (state = .leased ∧ ∃ b ∈ s.boundBuffers, b.id = id) ∨
    (state = .leased ∧ ∃ b ∈ out, b.id = id)
  live : s.arena.live = (s.buffers out).length
  limit : s.arena.live ≤ o.limit
  capacity : ∀ b ∈ s.buffers out, o.bufferSize ≤ b.capacity ∧ b.capacity ≤ o.maxBufferSize
  free : ∀ b ∈ s.free.toList, b.used = 0 ∧ b.position = 0 ∧ b.retired = false
  full : ∀ b ∈ s.full, b.retired = true ∧ b.pending.length = 0
  bound : ∀ thread b, s.bound? thread = some b → kind = .threadLocal ∧
    b.owner = .thread thread ∧ b.pending.length = 0 ∧ Recorder.keepBoundRoom ≤ b.free
  /-- A buffer is bound only if it is bound to a thread. -/
  binding : ∀ b ∈ s.boundBuffers, ∃ thread, s.bound? thread = some b

example : Recorder.keepBoundRoom = 48 := rfl

variable {s : Space} {out : List Buffer}

/-- The states in `holdings` are those of the places. -/
theorem mem_holdings_iff {id : BufferId} {state : SlotState} :
    (id, state) ∈ s.holdings out ↔
      (state = .free ∧ ∃ b ∈ s.free.toList, b.id = id) ∨
      (state = .full ∧ ∃ b ∈ s.full, b.id = id) ∨
      (state = .leased ∧ ∃ b ∈ s.boundBuffers, b.id = id) ∨
      (state = .leased ∧ ∃ b ∈ out, b.id = id) := by
  have hplace : ∀ (place : SlotState) (bs : List Buffer),
      (id, state) ∈ bs.map (fun b => (b.id, place)) ↔ state = place ∧ ∃ b ∈ bs, b.id = id := by
    intro place bs
    simp only [List.mem_map, Prod.mk.injEq]
    constructor
    · rintro ⟨b, hb, rfl, rfl⟩
      exact ⟨rfl, b, hb, rfl⟩
    · rintro ⟨rfl, b, hb, rfl⟩
      exact ⟨b, hb, rfl, rfl⟩
  simp only [holdings, List.map_append, List.mem_append, hplace]

theorem Sound.slot_iff (h : s.Sound out) {id : BufferId} {state : SlotState} :
    (s.arena.state? id = some state ∧ state ≠ .vacant) ↔ (id, state) ∈ s.holdings out := by
  constructor
  · rintro ⟨hs, hv⟩
    exact (h.accounts.state?_eq_some_iff hv).1 hs
  · intro hm
    exact ⟨h.accounts.state?_eq hm, h.accounts.shows.occupied _ hm⟩

theorem Sound.bound?_iff (h : s.Sound out) {thread : ThreadId} {b : Buffer} :
    s.bound? thread = some b ↔ (thread, some b) ∈ s.bindings := by
  rw [bound?, Option.join_eq_some_iff]
  exact ⟨Dict.mem_of_find?, h.ordered.find?_of_mem⟩

/-- **A sound pool is exclusive.** -/
theorem Sound.exclusivity (h : s.Sound out) : s.Exclusive s.options s.kind out where
  distinct := by
    -- The ids are distinct since even their slots are.
    have hd := h.accounts.shows.distinct
    have hmap : (s.holdings out).map (fun x => x.1.index) =
        ((s.holdings out).map Prod.fst).map BufferId.index := by
      rw [List.map_map]
      rfl
    rw [hmap] at hd
    rw [← map_id_buffers]
    exact List.Pairwise.of_map _ (fun _ _ hne heq => hne (congrArg BufferId.index heq)) hd
  slot id state := h.slot_iff.trans mem_holdings_iff
  live := by
    rw [h.accounts.live, ← List.length_map (f := Prod.fst), map_id_buffers, List.length_map]
  limit := h.limit
  capacity b hb := ⟨(h.fits b hb).least, (h.fits b hb).most⟩
  free b hb := by
    have hc := h.free b hb
    exact ⟨by rw [Buffer.used, hc.committed]; rfl, hc.position, hc.retired⟩
  full b hb := ⟨(h.full b hb).retired, by rw [(h.full b hb).pending]; rfl⟩
  bound thread b hb := by
    obtain ⟨hk, hkept⟩ := h.bound thread b (h.bound?_iff.1 hb)
    exact ⟨hk, hkept.owner, by rw [hkept.pending]; rfl, hkept.room⟩
  binding b hb := by
    obtain ⟨thread, hm⟩ := mem_boundBuffers.1 hb
    exact ⟨thread, h.bound?_iff.2 hm⟩

end Space

theorem Recorder.Sound.exclusivity {r : Recorder} {out : List Buffer} {e : Epoch}
    (h : r.Sound out e) (kind : BufferKind) :
    (r.space kind).Exclusive (r.options.space kind) kind (ofKind kind out) := by
  have he := (h.pool kind).exclusivity
  rwa [h.options, h.kind] at he

namespace Run

variable {options : RecorderOptions} {run : Run}

theorem Sound.exclusivity (h : run.Sound options) (kind : BufferKind) :
    (run.recorder.space kind).Exclusive (options.space kind) kind
      (run.held.filter fun b => b.kind == kind) := by
  have he := h.recorder.exclusivity kind
  rwa [h.options] at he

/-- **Exclusive ownership.**  In every reachable run each of the three pools has its slots and
places agree, the buffers of open writers among the latter, and there are as many buffers as were
made and not given up.

A buffer is free, full, bound to a thread or held by a writer, and in one place only; the slot under
its id says where.  There are never more than the pool may have, and none is larger than it may be.
What is in a place is as it has to be there: free buffers are empty, full ones are retired and have
nothing pending, and bound ones are their thread's and have room for one more small entry. -/
theorem Reachable.exclusive (h : Reachable options run) :
    (∀ kind, (run.recorder.space kind).Exclusive (options.space kind) kind
      (run.held.filter fun b => b.kind == kind)) ∧
    (run.recorder.space .global).arena.live + (run.recorder.space .threadLocal).arena.live +
      (run.recorder.space .virtualThreadLocal).arena.live +
      run.recorder.stats.buffersDeallocated = run.recorder.stats.buffersAllocated := by
  have hs := h.sound
  refine ⟨?_, ?_⟩
  · intro kind
    have he := (hs.recorder.pool kind).exclusivity
    rwa [hs.recorder.options kind, hs.options, hs.recorder.kind kind] at he
  · exact hs.recorder.counted

/-- Two writers of one thread: the buffer of the first one is bound when the thread ends, and the
second one is still open. -/
theorem Reachable.exclusive_overlapping :
    let run := small.walk [.start 7 .threadLocal, .start 7 .threadLocal, .append 0 [1, 2, 3],
      .append 1 [4, 5], .finish 0, .releaseThread 7]
    (run.recorder.space .threadLocal).Exclusive (smallOptions.space .threadLocal) .threadLocal
      (run.held.filter fun b => b.kind == .threadLocal) ∧
      (run.recorder.space .threadLocal).arena.live = 2 ∧ run.held.length = 1 ∧
      (run.recorder.space .threadLocal).full.length = 1 := by
  intro run
  have h : Reachable smallOptions run := (Reachable.create create_small).walk _ (by decide +kernel)
  exact ⟨h.exclusive.1 .threadLocal, by decide +kernel, by decide +kernel, by decide +kernel⟩

end Run

end TraceRecorder
