/-
# Writers go on while a drain uses its sink

A drain detaches buffers and then emits them, and only the first half needs the barrier.  Between
the two, in an interlude, writers begin, go on and end, the recorder writes checkpoints and threads
end.  The detached buffers are in nobody's list then, but their slots stay leased, so nobody else
gets one of them (`Underway`).

Since the pools reckon with nothing of a detached buffer but its slot, its husk stands in for it.  A
husk holds no byte of the epoch that a rotation has retired, so the run is sound in its new epoch
but for the husks that are lent (`Sound.lends_detached`), and quiet moves keep that (`Lends.walk`).

* `Lends.emit`: the emission does what it would have done at once, and all buffers are back;
* `Reachable.interlude`: what was published meanwhile is all that is there, and it is what the next
  drain passes on.
-/
import TraceRecorder.Proofs.Run.Delivery
import TraceRecorder.Proofs.Run.Generations

namespace TraceRecorder

open Fallible (Ends)

/-! ## 1. The first half -/

namespace Recorder

variable {r r₁ : Recorder} {d : Detached}

/-- **What the first half of a drain leaves**, if no writer is open: only empty buffers are pooled,
and nobody is active in the epoch, be it the old one or the next. -/
structure Parted (r : Recorder) (d : Detached) (r₁ : Recorder) : Prop where
  sound : r₁.Sound (d.buffers ++ []) r.epoch.current
  serves : r₁.epoch.Serves []
  sorted : Detached.Sorted d.parts
  prepared : r.Prepared r₁
  aborted : r₁.aborted = false
  empty : ∀ b ∈ r₁.pooled, b.isEmpty = true

theorem Sound.parted_write (h : r.Sound [] r.epoch.current) (hserves : r.epoch.Serves [])
    (hrun : Fallible.runOn Recorder.detachForWrite r = (.ok d, r₁)) : r.Parted d r₁ := by
  obtain ⟨ha, -, hk, -, hempty, ht⟩ := (h.detachForWrite hserves.barrier).run_eq hrun
  have hkept := (keeps_aborted_detachForWrite.ends r).run_eq hrun
  exact ⟨ht.sound, ht.epoch ▸ hserves, hk, ht.prepared, hkept.trans ha, hempty⟩

theorem Sound.parted_rotation (h : r.Sound [] r.epoch.current) (hserves : r.epoch.Serves [])
    (ha : r.aborted = false)
    (hrun : Fallible.runOn Recorder.detachForRotation r = (.ok d, r₁)) : r.Parted d r₁ := by
  obtain ⟨hp, -, hk, hs₁, hepoch, hempty, -⟩ :=
    ((h.detachForRotation hserves.barrier).run_eq hrun).resolve_left (not_refused_ok d)
  have hkept := h.aborted_detachForRotation.run_eq hrun
  exact ⟨hs₁, hepoch ▸ hserves.shifted, hk, hp, hkept.trans ha, hempty⟩

/-! ## 2. Husks -/

theorem ofKind_husks (kind : BufferKind) (buffers : List Buffer) :
    ofKind kind (buffers.map Buffer.husk) = (ofKind kind buffers).map Buffer.husk := by
  rw [ofKind, List.filter_map]
  rfl

end Recorder

namespace Space

variable {s : Space} {o : SpaceOptions} {kind : BufferKind} {out bs : List Buffer}

/-- A husk takes the place of its buffer. -/
theorem Exclusive.of_husks (h : s.Exclusive o kind (out ++ bs.map Buffer.husk)) :
    s.Exclusive o kind (out ++ bs) where
  distinct := by
    have hd := h.distinct
    simp only [buffers, List.map_append, List.map_map] at hd ⊢
    exact hd
  slot id state := by
    refine (h.slot id state).trans ?_
    simp only [List.mem_append, List.mem_map]
    refine or_congr Iff.rfl (or_congr Iff.rfl (or_congr Iff.rfl (and_congr Iff.rfl ?_)))
    constructor
    · rintro ⟨b, hb | ⟨x, hx, rfl⟩, hid⟩
      · exact ⟨b, .inl hb, hid⟩
      · exact ⟨x, .inr hx, hid⟩
    · rintro ⟨b, hb | hb, hid⟩
      · exact ⟨b, .inl hb, hid⟩
      · exact ⟨b.husk, .inr ⟨b, hb, rfl⟩, hid⟩
  live := by
    rw [h.live]
    simp [buffers]
  limit := h.limit
  capacity b hb := by
    have hcases : b ∈ s.free.toList ∨ b ∈ s.full ∨ b ∈ s.boundBuffers ∨ b ∈ out ∨ b ∈ bs := by
      simpa [buffers] using hb
    rcases hcases with hb | hb | hb | hb | hb
    · exact h.capacity b (mem_buffers.2 (.inl hb))
    · exact h.capacity b (mem_buffers.2 (.inr (.inl hb)))
    · exact h.capacity b (mem_buffers.2 (.inr (.inr (.inl hb))))
    · exact h.capacity b (mem_buffers.2 (.inr (.inr (.inr (List.mem_append_left _ hb)))))
    · exact h.capacity b.husk (mem_buffers.2 (.inr (.inr (.inr
        (List.mem_append_right _ (List.mem_map.2 ⟨b, hb, rfl⟩))))))
  free := h.free
  full := h.full
  bound := h.bound
  binding := h.binding

theorem Exclusive.apart (h : s.Exclusive o kind (out ++ bs)) {b x : Buffer} (hb : b ∈ bs)
    (hx : x ∈ s.buffers out) : x.id ≠ b.id := by
  have hd := h.distinct
  have hsplit : s.buffers (out ++ bs) = s.buffers out ++ bs := by
    simp [buffers]
  rw [hsplit, List.map_append] at hd
  exact (List.nodup_append.1 hd).2.2 x.id (List.mem_map.2 ⟨x, hx, rfl⟩) b.id
    (List.mem_map.2 ⟨b, hb, rfl⟩)

end Space

namespace Run

variable {options : RecorderOptions} {run : Run} {lent : List Buffer} {d : Detached}
  {r₁ : Recorder} {s : Sink}

/-! ## 3. The interlude -/

/-- **A drain whose emission is still to come.**  The slots and places of each pool agree, with the
detached buffers among those that are out, and no buffer in another place has the id of a detached
one. -/
structure Underway (options : RecorderOptions) (run : Run) (d : Detached) : Prop where
  exclusive : ∀ kind, (run.recorder.space kind).Exclusive (options.space kind) kind
    ((run.held ++ d.buffers).filter fun b => b.kind == kind)
  apart : ∀ b ∈ d.buffers, ∀ x ∈ (run.recorder.space b.kind).buffers
    (run.held.filter fun x => x.kind == b.kind), x.id ≠ b.id

theorem Lends.underway (h : run.Lends options (d.buffers.map Buffer.husk)) :
    run.Underway options d := by
  have hall : ∀ kind, (run.recorder.space kind).Exclusive (options.space kind) kind
      (Recorder.ofKind kind run.held ++ Recorder.ofKind kind d.buffers) := by
    intro kind
    have he := h.recorder.exclusivity kind
    rw [Recorder.ofKind_append, Recorder.ofKind_husks, h.options] at he
    exact he.of_husks
  refine ⟨fun kind => ?_, fun b hb x hx => ?_⟩
  · rw [List.filter_append]
    exact hall kind
  · exact (hall b.kind).apart (List.mem_filter.2 ⟨hb, beq_self_eq_true _⟩) hx

/-- **The detached buffers are lent**, once the first half of a drain is over. -/
theorem Sound.lends_detached (h : run.Sound options) (hw : run.writers = [])
    (hd : run.recorder.Parted d r₁) :
    ({ run with recorder := r₁ } : Run).Lends options (d.buffers.map Buffer.husk) := by
  refine ⟨?_, ?_, hd.prepared.options.trans h.options⟩
  · rw [hw]
    exact hd.serves
  · show r₁.Sound (run.held ++ _) _
    rw [held_eq_nil hw, List.nil_append]
    have hhusks := hd.sound.husks
    rw [List.append_nil] at hhusks
    -- Nothing is left that belongs to an epoch, be it over or not.
    refine hhusks.retag ?_ _
    intro b hb
    rcases List.mem_append.1 hb with hb | hb
    · exact hd.empty b hb
    · obtain ⟨x, -, rfl⟩ := List.mem_map.1 hb
      rfl

/-- **Quiet moves** keep what is lent, the sink and the mark of an abort, and entries only come. -/
theorem Lends.walk (h : run.Lends options lent) (moves : List Move)
    (hq : ∀ m ∈ moves, m.quiet = true) (hm : run.Admits moves) (l : Ledger) :
    (run.walk moves).Lends options lent ∧
      (run.walk moves).recorder.quietless = run.recorder.quietless ∧
      ∀ x, (run.walk moves).entries.count x + l.published.entries.count x =
        run.entries.count x + (run.book l moves).published.entries.count x := by
  induction moves generalizing run l with
  | nil => exact ⟨h, rfl, fun x => rfl⟩
  | cons m rest ih =>
    have hquiet := hq m List.mem_cons_self
    obtain ⟨hstep, hsettles⟩ := h.step hquiet hm.1
    obtain ⟨hwalk, hsame, hentries⟩ :=
      ih hstep (fun m hr => hq m (List.mem_cons_of_mem _ hr)) hm.2 (l ++ m.ledger run)
    refine ⟨hwalk, hsame.trans (run.quietless_step hquiet), fun x => ?_⟩
    have hdrains : m.drains = false := by
      cases m <;> first | rfl | cases hquiet
    obtain ⟨hacc, hdis, hun⟩ := ledger_of_not_drains run hdrains
    have hx := hsettles.entries x
    have hrest := hentries x
    rw [hacc, hdis, hun, Entry.split_nil] at hx
    rw [Ledger.published_append, Published.count_entries_append] at hrest
    simp only [List.count_nil] at hx
    show ((run.step m).walk rest).entries.count x + _ =
      _ + ((run.step m).book _ rest).published.entries.count x
    omega

/-! ## 4. The emission -/

def emit (run : Run) (d : Detached) : Run := (run.perform (Recorder.emit d)).2

/-- **The emission** asks nothing of the run but its sink, and what was lent is back. -/
theorem Lends.emit (h : run.Lends options (d.buffers.map Buffer.husk))
    (hk : Detached.Sorted d.parts) (hs : run.recorder.sink = some s) :
    (Fallible.runOn (Recorder.emit d) run.recorder).1 = (s.deliver d.buffers).1.answer ∧
      (run.emit d).Sound options ∧
      run.recorder.SinkOnly (run.emit d).recorder (s.deliver d.buffers).2 := by
  have hr := h.recorder.perm List.perm_append_comm
  obtain ⟨hanswer, hsound, honly, -⟩ := hr.emit hk hs
  have hepoch : (run.emit d).recorder.epoch = run.recorder.epoch :=
    (Recorder.epoch_eq_of_surroundings_eq honly.surroundings :)
  refine ⟨hanswer, ⟨?_, ?_, ?_⟩, honly⟩
  · rw [hepoch]
    exact h.toServes
  · rw [hepoch]
    exact hsound
  · have hoptions : (run.emit d).recorder.options = run.recorder.options :=
      (Recorder.options_eq_of_surroundings_eq honly.surroundings :)
    exact hoptions.trans h.options

end Run

/-! ## 5. The next drain -/

namespace Recorder

variable {r : Recorder} {s : Sink}

/-- **A drain passes on just these entries.** -/
def SendsJust (r : Recorder) (drain : Action Nat) (entries : List Bytes) : Prop :=
  ∃ gained, (Fallible.runOn drain r).1 = .ok gained.length ∧
    (Fallible.runOn drain r).2.chunk = r.chunk ++ gained ∧
    Entry.IsRow gained ∧ (Entry.split gained).Perm entries

theorem SendsJust.perm {drain : Action Nat} {xs ys : List Bytes} (h : r.SendsJust drain xs)
    (hp : xs.Perm ys) : r.SendsJust drain ys := by
  obtain ⟨gained, hanswer, hchunk, hrow, hsplit⟩ := h
  exact ⟨gained, hanswer, hchunk, hrow, hsplit.trans hp⟩

theorem Sound.write_sendsJust (h : r.Sound [] r.epoch.current) (hb : r.epoch.barrier = none)
    (ha : r.aborted = false) (hs : r.sink = some s) (hr : s.Reliable) :
    r.SendsJust Recorder.write (r.entries []) := by
  obtain ⟨hanswer, hchunk, -⟩ := h.write_reliable hb ha hs hr
  have hrows : ∀ b ∈ r.pooled, Entry.IsRow b.committed.bytes := fun b hb =>
    h.isRow (List.mem_append_left [] hb)
  obtain ⟨hrow, hsplit⟩ := split_flatMap hrows
  refine ⟨_, ?_, hchunk, hrow, ?_⟩
  · rw [hanswer, usedBytes_eq_length]
  · rw [hsplit, entries, List.append_nil]

/-- **A rotation passes on what is pooled and its own three checkpoints**, unless memory is
refused. -/
theorem Sound.rotate_sendsJust (h : r.Sound [] r.epoch.current) (hb : r.epoch.barrier = none)
    (ha : r.aborted = false) (hs : r.sink = some s) (hr : s.Reliable)
    (hg : ¬ Refused (Fallible.runOn Recorder.rotate r).1)
    (hsize : ∀ relation ∈ r.rotationRelations, relation.encode.length ≤ Memory.addressable) :
    r.SendsJust Recorder.rotate (r.entries [] ++ r.rotationEntries.entries) := by
  obtain ⟨⟨d, r₁, accepted, -, hdelivery⟩, -⟩ :=
    (h.rotate_delivery hb ha hs hsize).resolve_left hg
  obtain ⟨-, -, -, hsettles⟩ := (h.rotate hb).resolve_left hg
  have hcollects : Ends Recorder.rotate r _ := (h.detachForRotation_collects hb).unsent_eq_nil
  obtain ⟨n, hn⟩ := hdelivery.reliable hr
  have hunsent : r.unsent Recorder.detachForRotation = [] := by
    rcases hcollects with hno | ⟨f, hno⟩ | hnone
    · exact absurd hno hg
    · rw [hn] at hno
      cases hno
    · exact hnone
  have hsent : d.head accepted = r.sent Recorder.detachForRotation :=
    List.append_cancel_left (hdelivery.chunk.symm.trans hsettles.chunk)
  refine ⟨d.head accepted, ?_, hdelivery.chunk, ?_, ?_⟩
  · rw [hn, hdelivery.answers n hn]
  · rw [hsent]
    exact hsettles.row
  · rw [List.perm_iff_count]
    intro x
    have hx := hsettles.entries x
    have hnone : (Fallible.runOn Recorder.rotate r).2.entries [] = [] := by
      rw [entries, List.append_nil]
      refine List.flatMap_eq_nil_iff.2 fun b hb => entries_of_isEmpty ?_
      exact beq_iff_eq.2 (hdelivery.empty b hb)
    rw [hnone, hunsent, ← hsent] at hx
    simp only [List.count_nil, List.count_append] at hx ⊢
    omega

end Recorder

namespace Run

variable {options : RecorderOptions} {run : Run} {d : Detached} {s : Sink} {l : Ledger}

/-- **What a ledger has published waits for the next drain**: after more quiet moves, once all
writers have ended, that passes on this and what they publish. -/
def Pending (run : Run) (l : Ledger) : Prop :=
  ∀ more : List Move, (∀ m ∈ more, m.quiet = true) → run.Admits more →
    (run.walk more).writers = [] →
    let last := (run.walk more).recorder
    let published := (run.book l more).published.entries
    last.SendsJust Recorder.write published ∧
      (Move.rotate.granted (run.walk more) = true →
        (∀ relation ∈ last.rotationRelations, relation.encode.length ≤ Memory.addressable) →
        last.SendsJust Recorder.rotate (published ++ last.rotationEntries.entries))

theorem Sound.pending (h : run.Sound options) (ha : run.recorder.aborted = false)
    (hs : run.recorder.sink = some s) (hr : s.Reliable)
    (hl : run.entries.Perm l.published.entries) : run.Pending l := by
  intro more hq hm hw last published
  obtain ⟨hlends, hsame, hcount⟩ := h.lends.walk more hq hm l
  have hlast := hlends.sound
  have hpooled : (last.entries []).Perm published := by
    have hentries : (run.walk more).entries = last.entries [] := by
      rw [Run.entries, held_eq_nil hw]
    rw [List.perm_iff_count, ← hentries]
    intro x
    have hx := hcount x
    rw [hl.count_eq] at hx
    exact Nat.add_right_cancel (hx.trans (Nat.add_comm _ _))
  have hsound := hlast.recorder
  rw [held_eq_nil hw] at hsound
  have ha' := (Recorder.aborted_eq_of_quietless_eq hsame).trans ha
  have hs' := (Recorder.sink_eq_of_quietless_eq hsame).trans hs
  refine ⟨(hsound.write_sendsJust hlast.barrier ha' hs' hr).perm hpooled, fun hg hsize => ?_⟩
  exact (hsound.rotate_sendsJust hlast.barrier ha' hs' hr (not_refused_rotate hg) hsize).perm
    (hpooled.append_right _)

/-! ## 6. The whole -/

/-- **An interlude disturbs nothing.**  After the first half of a drain, in `before`, `d` was
detached and the moves are made; then come the emission and other moves. -/
structure Undisturbed (options : RecorderOptions) (before : Run) (d : Detached)
    (moves : List Move) : Prop where
  underway : (before.walk moves).Underway options d
  /-- The emission does what it would have done at once. -/
  answer : (Fallible.runOn (Recorder.emit d) (before.walk moves).recorder).1 =
    (Fallible.runOn (Recorder.emit d) before.recorder).1
  sink : ((before.walk moves).emit d).recorder.sink = (before.emit d).recorder.sink
  /-- All that was detached is passed on. -/
  succeeds : (Fallible.runOn (Recorder.emit d) before.recorder).1 =
    .ok (d.buffers.flatMap fun b => b.committed.bytes).length
  chunk : ((before.walk moves).emit d).recorder.chunk =
    before.recorder.chunk ++ d.buffers.flatMap fun b => b.committed.bytes
  exclusive : ∀ kind, (((before.walk moves).emit d).recorder.space kind).Exclusive
    (options.space kind) kind
    (((before.walk moves).emit d).held.filter fun b => b.kind == kind)
  /-- What was published meanwhile is all that is there. -/
  entries : ((before.walk moves).emit d).entries.Perm (before.book {} moves).published.entries
  /-- It is what the next drain passes on. -/
  pending : ((before.walk moves).emit d).Pending (before.book {} moves)

/-- **The interlude of a run that has lent the detached buffers.** -/
theorem Lends.undisturbed (h : run.Lends options (d.buffers.map Buffer.husk))
    (hw : run.writers = []) (hk : Detached.Sorted d.parts) (ha : run.recorder.aborted = false)
    (hempty : ∀ b ∈ run.recorder.pooled, b.isEmpty = true) (hs : run.recorder.sink = some s)
    (hr : s.Reliable) {moves : List Move} (hq : ∀ m ∈ moves, m.quiet = true)
    (hm : run.Admits moves) : run.Undisturbed options d moves := by
  obtain ⟨hlends, hsame, hcount⟩ := h.walk moves hq hm {}
  have hs' := (Recorder.sink_eq_of_quietless_eq hsame).trans hs
  obtain ⟨hanswer, -, honly⟩ := h.emit hk hs
  obtain ⟨hanswer', hsound', honly'⟩ := hlends.emit hk hs'
  have hdelivers := s.delivers d.buffers
  obtain ⟨hr', hnone, hwritten⟩ := hdelivers.reliable hr
  have hbytes : (s.share d.buffers).flatMap (fun b => b.committed.bytes) =
      d.buffers.flatMap fun b => b.committed.bytes := by
    rw [Sink.share_of_reliable hr, Recorder.flatMap_laden fun _ => Buffer.isEmpty_iff.1]
  have hentries : ((run.walk moves).emit d).entries.Perm (run.book {} moves).published.entries := by
    have hbefore : run.entries = [] := by
      rw [Run.entries, held_eq_nil hw, Recorder.entries, List.append_nil]
      exact List.flatMap_eq_nil_iff.2 fun b hb => Recorder.entries_of_isEmpty (hempty b hb)
    have hafter : ((run.walk moves).emit d).entries = (run.walk moves).entries :=
      (congrArg (fun pooled => (pooled ++ (run.walk moves).held).flatMap Buffer.entries)
        honly'.pooled :)
    rw [hafter, List.perm_iff_count]
    intro x
    have hx := hcount x
    rw [hbefore] at hx
    simpa [Published.entries] using hx
  have hkept : ((run.walk moves).emit d).recorder.aborted = (run.walk moves).recorder.aborted :=
    (congrArg Recorder.aborted honly'.surroundings :)
  have ha' := (hkept.trans (Recorder.aborted_eq_of_quietless_eq hsame)).trans ha
  exact {
    underway := hlends.underway
    answer := hanswer'.trans hanswer.symm
    sink := honly'.sink.trans honly.sink.symm
    succeeds := by rw [hanswer, Emitted.answer, hnone, hwritten, usedBytes_eq_length]
    chunk := by
      rw [Recorder.chunk, Recorder.chunk, honly'.sink, hs, ← hbytes]
      simpa using hdelivers.content
    exclusive := hsound'.exclusivity
    entries := hentries
    pending := hsound'.pending ha' honly'.sink hr' hentries }

/-- **Writers go on while a drain uses its sink, and disturb nothing.**

While no writer is open, the recorder was not aborted and the sink accepts every call, the first
half of a drain succeeds, and that of a rotation too unless memory is refused.  Then, whatever quiet
moves are made before the emission, the detached buffers are nobody's, the sink gets just the bytes
that it would have got at once, slots and places agree before and after, and what was published
meanwhile is what the next drain passes on. -/
theorem Reachable.interlude (h : Reachable options run) (hw : run.writers = [])
    (ha : run.recorder.aborted = false) (hs : run.recorder.sink = some s) (hr : s.Reliable) :
    (∃ d r₁, Fallible.runOn Recorder.detachForWrite run.recorder = (.ok d, r₁) ∧
      ∀ moves : List Move, (∀ m ∈ moves, m.quiet = true) →
        ({ run with recorder := r₁ } : Run).Admits moves →
        ({ run with recorder := r₁ } : Run).Undisturbed options d moves) ∧
    (Move.rotate.granted run = true →
      (∀ relation ∈ run.recorder.rotationRelations,
        relation.encode.length ≤ Memory.addressable) →
      ∃ d r₁, Fallible.runOn Recorder.detachForRotation run.recorder = (.ok d, r₁) ∧
        ∀ moves : List Move, (∀ m ∈ moves, m.quiet = true) →
          ({ run with recorder := r₁ } : Run).Admits moves →
          ({ run with recorder := r₁ } : Run).Undisturbed options d moves) := by
  have hsound := h.sound
  have hr' := hsound.recorder
  rw [held_eq_nil hw] at hr'
  have hserves := hsound.toServes
  rw [hw] at hserves
  have hgoes : ∀ {d : Detached} {r₁ : Recorder}, run.recorder.Parted d r₁ →
      ∀ moves : List Move, (∀ m ∈ moves, m.quiet = true) →
        ({ run with recorder := r₁ } : Run).Admits moves →
        ({ run with recorder := r₁ } : Run).Undisturbed options d moves := by
    intro d r₁ hd moves hq hm
    have hs₁ : r₁.sink = some s := hd.prepared.sink.trans hs
    exact (hsound.lends_detached hw hd).undisturbed hw hd.sorted hd.aborted hd.empty hs₁ hr hq hm
  refine ⟨?_, fun hg hsize => ?_⟩
  · obtain ⟨d, r₁, -, hrun, -⟩ := hr'.write_delivery hsound.barrier ha hs
    exact ⟨d, r₁, hrun, hgoes (hr'.parted_write hserves hrun)⟩
  · obtain ⟨⟨d, r₁, -, hrun, -⟩, -⟩ :=
      (hr'.rotate_delivery hsound.barrier ha hs hsize).resolve_left (not_refused_rotate hg)
    exact ⟨d, r₁, hrun, hgoes (hr'.parted_rotation hserves ha hrun)⟩

/-- The detached buffer counts towards the limit until it is back, so a writer of another thread
gets no third one meanwhile: its first piece waits for the next drain, its second one is dropped. -/
theorem Reachable.interlude_at_limit :
    let before := small.walk [.start 7 .threadLocal, .append 0 [1, 2, 3], .finish 0]
    let run := before.step (.installSink {})
    let moves : List Move := [.start 9 .threadLocal, .append 0 (List.replicate 20 1),
      .releaseThread 7, .append 0 (List.replicate 40 2)]
    (∃ d r₁, Fallible.runOn Recorder.detachForWrite run.recorder = (.ok d, r₁) ∧
      ({ run with recorder := r₁ } : Run).Undisturbed smallOptions d moves) ∧
    ∃ d r₁, Fallible.runOn Recorder.detachForRotation run.recorder = (.ok d, r₁) ∧
      ({ run with recorder := r₁ } : Run).Undisturbed smallOptions d moves := by
  intro before run moves
  have h : Reachable smallOptions run :=
    ((Reachable.create create_small).walk _ (by decide +kernel)).step (.installSink {})
      (by decide +kernel)
  have hnone : before.recorder.sink = none := Option.isNone_iff_eq_none.1 (by decide +kernel)
  have hs : run.recorder.sink = some {} := by
    simp [run, Run.step, Run.act, Run.perform, Recorder.installSink, hnone]
  obtain ⟨hwrite, hrotate⟩ := h.interlude (by decide +kernel) (by decide +kernel) hs
    ⟨fun _ => rfl, fun _ => rfl⟩
  have hquiet : ∀ m ∈ moves, m.quiet = true := by decide
  constructor
  · obtain ⟨d, r₁, hrun, hgoes⟩ := hwrite
    obtain rfl : (Fallible.runOn Recorder.detachForWrite run.recorder).2 = r₁ :=
      congrArg Prod.snd hrun
    exact ⟨d, _, hrun, hgoes moves hquiet (by decide +kernel)⟩
  · obtain ⟨d, r₁, hrun, hgoes⟩ := hrotate (by decide +kernel) (by decide +kernel)
    obtain rfl : (Fallible.runOn Recorder.detachForRotation run.recorder).2 = r₁ :=
      congrArg Prod.snd hrun
    exact ⟨d, _, hrun, hgoes moves hquiet (by decide +kernel)⟩

end Run

end TraceRecorder
