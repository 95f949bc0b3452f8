/-
# What reaches a sink that refuses calls

A sink may refuse any call, and a refused call has no effect.  A drain appends the buffers that it
detached up to the first refused call, whole buffers only, and counts just the bytes of these; all
buffers come back in any case (`Sound.drain_delivery`).  So the counted bytes are those that the
sinks of a run have, whatever they refused (`Booked.delivery`).
-/
import Mathlib.Algebra.GroupWithZero.Nat
import TraceRecorder.Proofs.Recorder.Returns
import TraceRecorder.Proofs.Run.Ownership
import TraceRecorder.Proofs.Run.Violation

namespace TraceRecorder

open Fallible (Ends Keeps)

/-- The bytes of the first few detached buffers that carry anything. -/
def Detached.head (d : Detached) (count : Nat) : Bytes :=
  ((laden d.buffers).take count).flatMap fun b => b.committed.bytes

namespace Recorder

variable {r r₁ r' source : Recorder} {out out' : List Buffer} {d : Detached} {s : Sink}
  {e e' : Epoch}

/-! ## 1. Buffers that come back -/

/-- **All detached buffers came back**: each one is free again or was given up, and those are
counted. -/
structure Returned (r₁ : Recorder) (d : Detached) (r' : Recorder) (kept gone : List Buffer) :
    Prop where
  all : (kept ++ gone).Perm d.buffers
  freed : ∀ b ∈ kept, (r'.space b.kind).arena.state? b.id = some .free ∧
    ∃ x ∈ (r'.space b.kind).free.toList, x.id = b.id
  vacated : ∀ b ∈ gone, ∀ state, (r'.space b.kind).arena.state? b.id = some state → state = .vacant
  counted : r'.stats.buffersDeallocated = r₁.stats.buffersDeallocated + gone.length

variable {kept gone : List Buffer}

theorem Regains.apart (h : r₁.Regains r' d.buffers kept gone) (hs₁ : r₁.Sound d.buffers e)
    {b x : Buffer} (hb : b ∈ gone)
    (hx : ((x ∈ (r₁.space b.kind).free.toList ∨ x ∈ (r₁.space b.kind).full) ∨
      x ∈ (r₁.space b.kind).boundBuffers) ∨ x ∈ kept.filter fun x => x.kind == b.kind) :
    x.id ≠ b.id := by
  have hsplit := ((h.all.filter fun x => x.kind == b.kind).map Buffer.id).symm
  have hnodup := (hs₁.pool b.kind).exclusivity.distinct
  simp only [Space.buffers, List.map_append, List.filter_append] at hsplit hnodup
  have hplaces := (((hsplit.append_left _).append_left _).append_left _).nodup_iff.1 hnodup
  simp only [← List.append_assoc] at hplaces
  have hid : b.id ∈ (gone.filter fun x => x.kind == b.kind).map Buffer.id :=
    List.mem_map.2 ⟨b, List.mem_filter.2 ⟨hb, beq_self_eq_true _⟩, rfl⟩
  refine (List.nodup_append.1 hplaces).2.2 x.id ?_ b.id hid
  simp only [← List.map_append]
  exact List.mem_map.2 ⟨x, by simpa only [List.mem_append] using hx, rfl⟩

/-- **What is regained has come back**: the places of a pool are as they were, but for the buffers
that are free again. -/
theorem Regains.returned (h : r₁.Regains r' d.buffers kept gone) (hs₁ : r₁.Sound d.buffers e)
    (hs' : r'.Sound [] e') : r₁.Returned d r' kept gone := by
  refine ⟨h.all, fun b hb => ?_, fun b hb state hstate => ?_, h.counted⟩
  · have hm : b.husk ∈ (r'.space b.kind).free.toList := by
      rw [h.free]
      exact List.mem_append_right _
        (List.mem_map.2 ⟨b, List.mem_filter.2 ⟨hb, beq_self_eq_true _⟩, rfl⟩)
    exact ⟨(((hs'.pool b.kind).exclusivity.slot b.id .free).2 (.inl ⟨rfl, b.husk, hm, rfl⟩)).1,
      b.husk, hm, rfl⟩
  · -- A slot in use is that of a buffer in some place, which is not one of those given up.
    have hbindings : (r'.space b.kind).boundBuffers = (r₁.space b.kind).boundBuffers :=
      (congrArg Space.boundBuffers (h.visible b.kind) :)
    have hfull : (r'.space b.kind).full = (r₁.space b.kind).full :=
      (congrArg Space.full (h.visible b.kind) :)
    by_contra hne
    rcases ((hs'.pool b.kind).exclusivity.slot b.id state).1 ⟨hstate, hne⟩ with
      ⟨-, x, hx, hxid⟩ | ⟨-, x, hx, hxid⟩ | ⟨-, x, hx, hxid⟩ | ⟨-, x, hx, -⟩
    · rw [h.free] at hx
      rcases List.mem_append.1 hx with hx | hx
      · exact h.apart hs₁ hb (.inl (.inl (.inl hx))) hxid
      · obtain ⟨y, hy, rfl⟩ := List.mem_map.1 hx
        exact h.apart hs₁ hb (.inr hy) hxid
    · exact h.apart hs₁ hb (.inl (.inl (.inr (hfull ▸ hx)))) hxid
    · exact h.apart hs₁ hb (.inl (.inr (hbindings ▸ hx))) hxid
    · cases hx

/-! ## 2. Drains -/

/-- **Everything that a drain may take**, in the order in which it does: of each pool the full
buffers in the order of registration, and of carrier threads also the bound ones. -/
def stock (r : Recorder) : List Buffer :=
  r.global.full.reverse ++ (r.threadLocal.full.reverse ++
    (r.threadLocal.boundBuffers ++ r.virtualThreadLocal.full.reverse))

/-- **What comes of a drain**, whatever its sink refuses.  It detached what carries anything in
`source`, the sink accepted the first few of these, and then there was a refused call or none was
left. -/
structure Delivery (r source : Recorder) (s : Sink) (d : Detached) (r₁ : Recorder) (accepted : Nat)
    (answer : Except Fault Nat) (r' : Recorder) : Prop where
  /-- Bound buffers stand by ascending thread. -/
  ascending : (source.threadLocal.bindings.map Prod.fst).Pairwise (· < ·)
  detached : laden d.buffers = laden source.stock
  most : accepted ≤ (laden d.buffers).length
  accepts : ∀ i < accepted, s.appendFault (s.appends + i) = none
  refuses : accepted < (laden d.buffers).length →
    (s.appendFault (s.appends + accepted)).isSome = true
  chunk : r'.chunk = r.chunk ++ d.head accepted
  written : r'.stats.bytesWritten = r.stats.bytesWritten + (d.head accepted).length
  fails : (∃ fault, answer = .error fault) ↔
    accepted < (laden d.buffers).length ∨ (s.flushFault s.flushes).isSome = true
  answers : ∀ n, answer = .ok n → n = (d.head accepted).length
  returned : ∃ kept gone, r₁.Returned d r' kept gone
  empty : ∀ b ∈ r'.pooled, b.used = 0
  /-- No slot is leased but those of bound buffers. -/
  exclusive : ∀ kind, (r'.space kind).Exclusive (r.options.space kind) kind []

theorem Delivery.reliable {accepted : Nat} {answer : Except Fault Nat}
    (h : r.Delivery source s d r₁ accepted answer r') (hr : s.Reliable) : ∃ n, answer = .ok n := by
  cases hanswer : answer with
  | ok n => exact ⟨n, rfl⟩
  | error fault =>
    exfalso
    rcases h.fails.1 ⟨fault, hanswer⟩ with hless | hflush
    · have hrefused := h.refuses hless
      rw [hr.append] at hrefused
      cases hrefused
    · rw [hr.flush] at hflush
      cases hflush

theorem Sound.ascending (h : r.Sound out e) :
    (r.threadLocal.bindings.map Prod.fst).Pairwise (· < ·) := by
  refine List.pairwise_map.2 ((h.pool .threadLocal).ordered.imp ?_)
  intro a b hab
  simpa [KeyOrder.before] using hab

/-- **A drain over any sink**, from what its first half has done.  The sink accepts some of the
detached buffers and then refuses one, or accepts all and refuses the flush, or neither.  In each
case the chunk gains what was accepted, the counter says so, and all detached buffers come back:
they are free again, or given up. -/
theorem Sound.drain_delivery {first : Action Detached} (hsource : source.Sound out e)
    (hladen : laden d.buffers = laden source.pooled)
    (hrun : Fallible.runOn first r = (.ok d, r₁)) (hs₁ : r₁.Sound d.buffers e')
    (hk : Detached.Sorted d.parts) (hp : Prepared r r₁) (hempty : ∀ b ∈ r₁.pooled, b.isEmpty = true)
    (hkept : Keeps Recorder.written first) (hsink : r.sink = some s) :
    Ends (do let d ← first; Recorder.emit d) r fun answer r' =>
      r.Delivery source s d r₁ (s.granted (laden d.buffers).length) answer r' := by
  have hsink₁ : r₁.sink = some s := hp.sink.trans hsink
  have hwritten₁ : r₁.stats.bytesWritten = r.stats.bytesWritten := (hkept.ends r).run_eq hrun
  have hall : r₁.Sound (d.buffers ++ []) e' := by rwa [List.append_nil]
  obtain ⟨hcontent, hwritten, hfailure, -⟩ := s.delivers d.buffers
  refine Ends.after hrun ((hall.husks.emit hk hsink₁).mono ?_)
  rintro answer r' ⟨rfl, hs', honly, hcount, kept, gone, hback⟩
  have hanswer : ∀ {answer : Except Fault Nat}, (s.deliver d.buffers).1.answer = answer →
      ((∃ fault, answer = .error fault) ↔ (s.deliver d.buffers).1.failure.isSome = true) ∧
        ∀ n, answer = .ok n → n = (s.deliver d.buffers).1.written := by
    rintro answer rfl
    unfold Emitted.answer
    cases (s.deliver d.buffers).1.failure with
    | none => simp
    | some fault => simp
  obtain ⟨hfails, hanswers⟩ := hanswer rfl
  have hbytes : (s.deliver d.buffers).1.written =
      (d.head (s.granted (laden d.buffers).length)).length := by
    rw [hwritten, usedBytes_eq_length]
    rfl
  constructor
  · exact hsource.ascending
  · rw [hladen, hsource.pooled_eq]
    rfl
  · exact Sink.acceptedFrom_le _ _ _
  · exact fun i hi => Sink.acceptedFrom_accepts hi
  · exact fun hless => Sink.acceptedFrom_refuses hless
  · rw [chunk, chunk, honly.sink, hsink]
    simpa [Detached.head, Sink.share] using hcontent
  · rw [hcount, hwritten₁, hbytes]
  · exact hfails.trans hfailure
  · exact fun n hn => (hanswers n hn).trans hbytes
  · exact ⟨kept, gone, hback.returned hs₁ hs'⟩
  · intro b hb
    rw [honly.pooled] at hb
    exact beq_iff_eq.1 (hempty b hb)
  · intro kind
    have ho : r'.options = r.options :=
      (options_eq_of_surroundings_eq honly.surroundings).trans hp.options
    exact ho ▸ hs'.exclusivity kind

/-- **The current epoch is drained** over any sink.  The first half of a write only detaches what is
pooled, so all that the sink is offered is what was committed before. -/
theorem Sound.write_delivery (h : r.Sound [] r.epoch.current) (hb : r.epoch.barrier = none)
    (ha : r.aborted = false) (hsink : r.sink = some s) :
    Ends Recorder.write r fun answer r' => ∃ d r₁ accepted,
      Fallible.runOn Recorder.detachForWrite r = (.ok d, r₁) ∧
      r.Delivery r s d r₁ accepted answer r' := by
  have hfirst := Sound.detachForWrite h hb
  rcases hrun : Fallible.runOn Recorder.detachForWrite r with ⟨fault | d, r₁⟩
  · obtain ⟨-, hno | hno⟩ := hfirst.run_eq hrun
    · rw [ha] at hno
      cases hno
    · rw [hsink] at hno
      cases hno
  · obtain ⟨-, -, hk, hladen, hempty, ht⟩ := hfirst.run_eq hrun
    have hs₁ := ht.sound
    rw [List.append_nil] at hs₁
    exact (Sound.drain_delivery h hladen hrun hs₁ hk ht.prepared hempty keeps_written_detachForWrite
      hsink).mono fun answer r' hpost => ⟨d, r₁, _, rfl, hpost⟩

/-- **A rotation over any sink**, unless memory is refused: the epoch flips also where the sink
refuses a call. -/
theorem Sound.rotate_delivery (h : r.Sound [] r.epoch.current) (hb : r.epoch.barrier = none)
    (ha : r.aborted = false) (hsink : r.sink = some s)
    (hs : ∀ relation ∈ r.rotationRelations, relation.encode.length ≤ Memory.addressable) :
    Ends Recorder.rotate r fun answer r' => Refused answer ∨
      ((∃ d r₁ accepted, Fallible.runOn Recorder.detachForRotation r = (.ok d, r₁) ∧
        r.Delivery r.retiring s d r₁ accepted answer r') ∧
      r'.epoch = r.epoch.shifted ∧ r'.stats.rotations = r.stats.rotations + 1 ∧
      r'.notifier = r.notifier.post r.epoch.shifted.current) := by
  have hfirst := ((h.detachForRotation hb).and (h.detachForRotation_retires hb)).and
    (h.detachForRotation_answers ha (by rw [hsink]; rfl) hs)
  rcases hrun : Fallible.runOn Recorder.detachForRotation r with ⟨answer, r₁⟩
  obtain ⟨⟨hpost, hretires⟩, hrefused | ⟨d, rfl⟩⟩ := hfirst.run_eq hrun
  · obtain ⟨fault, rfl, hfault⟩ := hrefused
    exact Ends.stop hrun (.inl ⟨fault, rfl, hfault⟩)
  obtain ⟨hp, -, hk, hs₁, hepoch, hempty, -⟩ := hpost.resolve_left (not_refused_ok d)
  obtain ⟨hsource, hd⟩ := hretires d rfl
  rw [List.append_nil] at hs₁
  have hdrain : Ends Recorder.rotate r _ := Sound.drain_delivery hsource hd.detached hrun hs₁ hk hp
    hempty keeps_written_detachForRotation hsink
  have hkept : Ends Recorder.rotate r fun _ r' => r'.sinkless = r₁.sinkless :=
    Ends.after hrun ((keeps_emit d).ends r₁)
  refine (hdrain.and hkept).mono ?_
  rintro answer r' ⟨hdelivery, hsame⟩
  refine .inr ⟨⟨d, r₁, _, rfl, hdelivery⟩, ?_, ?_, ?_⟩
  · exact (congrArg Recorder.epoch hsame :).trans hd.epoch
  · exact (congrArg (fun r => r.stats.rotations) hsame :).trans hd.rotations
  · exact (congrArg Recorder.notifier hsame :).trans hd.notifier

end Recorder

namespace Run

variable {options : RecorderOptions} {run : Run} {l : Ledger}

/-! ## 3. Runs -/

/-- **A move counts just the bytes that a sink accepts in it.**  Only drains count any, and each of
them counts the accepted prefix, also if the sink refuses the rest. -/
theorem Sound.written_step (h : run.Sound options) (m : Move) :
    (run.step m).recorder.stats.bytesWritten =
      run.recorder.stats.bytesWritten + (m.ledger run).accepted.length := by
  have hr := h.recorder
  by_cases hdrain : m = .write ∨ m = .flushTypeSet ∨ m = .shift ∨ m = .rotate
  · rcases hdrain with rfl | rfl | rfl | rfl
    · exact (hr.detachForWrite_collects h.barrier).written Recorder.keeps_written_detachForWrite
    · have hflush := (hr.detachForFlush_collects h.barrier).written
        Recorder.keeps_written_detachForFlush
      rw [← Recorder.flushTypeSet_eq] at hflush
      exact hflush
    · exact Recorder.keeps_written_shift run.recorder
    · exact (hr.detachForRotation_collects h.barrier).written
        Recorder.keeps_written_detachForRotation
  · have hnone : (m.ledger run).accepted = [] := by
      cases m <;> simp at hdrain <;> rfl
    rw [hnone]
    exact (run.kept_step hdrain).2.2.1

/-- **The counted bytes are those of all chunks**, if all sinks were empty when they came. -/
theorem Booked.written (h : Booked options run l) (hbrought : l.brought = []) :
    run.recorder.stats.bytesWritten = run.recorded.length := by
  induction h with
  | create h =>
    obtain ⟨-, -, hsink, hstats⟩ := Recorder.sound_create h
    rw [recorded_eq, Recorder.chunk, hstats, hsink]
    rfl
  | @step run l c m hm ih =>
    have hs := c.reachable.sound
    rw [Ledger.brought_append, List.append_eq_nil_iff] at hbrought
    rw [hs.written_step m, ih hbrought.1, (hs.step m hm).2.recorded hbrought.2, List.length_append]

theorem length_recorded (run : Run) :
    run.recorded.length = (run.sinks.map Sink.committed).sum := by
  rw [recorded, List.length_flatMap]
  refine congrArg List.sum (List.map_congr_left fun s _ => ?_)
  exact Tape.length_bytes s.taken

/-- **A drain loses nothing but what its sink refuses**, in every run.

While no writer is open and the recorder was not aborted, `write` and `rotate` detach all that
carries anything, and the sink gets the bytes of the first few of these buffers, up to the first
refused call.  That many bytes are counted, the answer is a fault exactly if that call or the last
flush was refused, and all detached buffers are free again, or given up and counted.  A rotation has
flipped the epoch and told and counted that in any case, unless memory is refused.

So if all sinks were empty when they came, the counted bytes are those that they hold together. -/
theorem Booked.delivery (h : Booked options run l) :
    (∀ s, run.recorder.aborted = false → run.writers = [] → run.recorder.sink = some s →
      (∃ d r₁ accepted,
        Fallible.runOn Recorder.detachForWrite run.recorder = (.ok d, r₁) ∧
        run.recorder.Delivery run.recorder s d r₁ accepted
          (Fallible.runOn Recorder.write run.recorder).1
          (Fallible.runOn Recorder.write run.recorder).2) ∧
      (Move.rotate.granted run = true →
        (∀ relation ∈ run.recorder.rotationRelations,
          relation.encode.length ≤ Memory.addressable) →
        (∃ d r₁ accepted,
          Fallible.runOn Recorder.detachForRotation run.recorder = (.ok d, r₁) ∧
          run.recorder.Delivery run.recorder.retiring s d r₁ accepted
            (Fallible.runOn Recorder.rotate run.recorder).1
            (Fallible.runOn Recorder.rotate run.recorder).2) ∧
        (Fallible.runOn Recorder.rotate run.recorder).2.epoch = run.recorder.epoch.shifted ∧
        (Fallible.runOn Recorder.rotate run.recorder).2.stats.rotations =
          run.recorder.stats.rotations + 1 ∧
        (Fallible.runOn Recorder.rotate run.recorder).2.notifier =
          run.recorder.notifier.post run.recorder.epoch.shifted.current)) ∧
    (l.brought = [] →
      run.recorder.stats.bytesWritten = (run.sinks.map Sink.committed).sum) := by
  have hs := h.reachable.sound
  refine ⟨fun s ha hw hsink => ?_, fun hbrought => ?_⟩
  · have hr := hs.recorder
    rw [held_eq_nil hw] at hr
    refine ⟨hr.write_delivery hs.barrier ha hsink, fun hg hsize => ?_⟩
    exact (hr.rotate_delivery hs.barrier ha hsink hsize).resolve_left (not_refused_rotate hg)
  · rw [h.written hbrought, length_recorded]

/-- A checkpoint in two pieces waits, and the sink refuses the second of two calls: the first piece
is written and counted, by a drain as by a rotation. -/
theorem Booked.delivery_refused :
    let sink : Sink := { appendFault := fun n => if n = 1 then some { kind := .io } else none }
    let moves : List Move := [.start 7 .threadLocal, .append 0 (List.replicate 20 1),
      .append 0 (List.replicate 40 2), .finish 0]
    let run := (small.walk moves).step (.installSink sink)
    let after := run.step .write
    (∃ d r₁ accepted, Fallible.runOn Recorder.detachForWrite run.recorder = (.ok d, r₁) ∧
      run.recorder.Delivery run.recorder sink d r₁ accepted
        (Fallible.runOn Recorder.write run.recorder).1
        (Fallible.runOn Recorder.write run.recorder).2) ∧
    (Fallible.runOn Recorder.write run.recorder).1 = .error (.sink { kind := .io }) ∧
    (Fallible.runOn Recorder.rotate run.recorder).1 = .error (.sink { kind := .io }) ∧
    (Fallible.runOn Recorder.rotate run.recorder).2.epoch = run.recorder.epoch.shifted ∧
    after.recorder.stats.bytesWritten = (after.sinks.map Sink.committed).sum ∧
    after.recorder.stats.bytesWritten = 52 := by
  intro sink moves run after
  have h : Booked smallOptions run _ :=
    ((Booked.create create_small).walk moves (by decide +kernel)).step (.installSink sink)
      (by decide +kernel)
  have hafter : Booked smallOptions after _ := h.step .write (by decide +kernel)
  have hnone : (small.walk moves).recorder.sink = none :=
    Option.isNone_iff_eq_none.1 (by decide +kernel)
  have hsink : run.recorder.sink = some sink := by
    simp [run, Run.step, Run.act, Run.perform, Recorder.installSink, hnone]
  obtain ⟨hwrite, hrotate⟩ := h.delivery.1 sink (by decide +kernel) (by decide +kernel) hsink
  exact ⟨hwrite, by decide +kernel, by decide +kernel,
    (hrotate (by decide +kernel) (by decide +kernel)).2.1,
    hafter.delivery.2 (by decide +kernel), by decide +kernel⟩

end Run

end TraceRecorder
