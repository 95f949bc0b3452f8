/-
# Nothing is stranded in a generation that is over

Buffers outlive checkpoints: they stay bound to threads, are carried over to larger ones, and empty
ones even survive a flip of the epoch.  But all that is committed in a buffer, wherever that is
held, belongs to the current epoch.  So a drain of that epoch takes everything, as much as would be
discarded, and nothing is left for a second one (`Reachable.generation`).
-/
import TraceRecorder.Proofs.Run.Steps

namespace TraceRecorder

namespace Recorder

/-- **There is nothing to drain**: a drain gives nothing, and nothing stands against a shift. -/
structure Drained (r : Recorder) : Prop where
  answer : (Fallible.runOn write r).1 = .ok 0
  chunk : (Fallible.runOn write r).2.chunk = r.chunk
  shift : (Fallible.runOn shift r).1 = .ok r.epoch.current.other

variable {r : Recorder} {e : Epoch}

/-- **A sink that accepts every call takes all that is pooled**, and only empty buffers stay. -/
theorem Sound.write_reliable {s : Sink} (h : r.Sound [] r.epoch.current)
    (hb : r.epoch.barrier = none) (ha : r.aborted = false) (hs : r.sink = some s)
    (hr : s.Reliable) :
    (Fallible.runOn Recorder.write r).1 = .ok (usedBytes r.pooled) ∧
      (Fallible.runOn Recorder.write r).2.chunk =
        r.chunk ++ r.pooled.flatMap (fun b => b.committed.bytes) ∧
      ∃ s', s'.Reliable ∧
        (Fallible.runOn Recorder.write r).2.surroundings = (r.withSink s').surroundings ∧
        (Fallible.runOn Recorder.write r).2.Sound [] r.epoch.current ∧
        ∀ b ∈ (Fallible.runOn Recorder.write r).2.pooled, b.isEmpty = true := by
  obtain ⟨hsettles, ⟨-, -, ha' | hs'⟩ | ⟨s₀, s', hs₀, hsur, hsound, hempty, hreliable⟩⟩ :=
    h.write hb
  · rw [ha] at ha'
    cases ha'
  · rw [hs] at hs'
    cases hs'
  · rw [hs] at hs₀
    cases hs₀
    obtain ⟨hr', hanswer, hsent⟩ := hreliable hr
    refine ⟨hanswer, ?_, s', hr', hsur, hsound, hempty⟩
    rw [hsettles.chunk, hsent, flatMap_laden fun _ => Buffer.isEmpty_iff.1]

theorem usedBytes_of_empty {buffers : List Buffer} (h : ∀ b ∈ buffers, b.isEmpty = true) :
    usedBytes buffers = 0 := by
  induction buffers with
  | nil => rfl
  | cons b rest ih =>
    have hb : b.used = 0 := by simpa [Buffer.isEmpty] using h b List.mem_cons_self
    rw [usedBytes_cons, hb, Nat.zero_add]
    exact ih fun x hx => h x (List.mem_cons_of_mem _ hx)

/-- **A recorder with empty buffers only is drained.** -/
theorem Sound.drained {s : Sink} (h : r.Sound [] r.epoch.current) (hb : r.epoch.barrier = none)
    (ha : r.aborted = false) (hs : r.sink = some s) (hr : s.Reliable)
    (hempty : ∀ b ∈ r.pooled, b.isEmpty = true) : r.Drained := by
  obtain ⟨hanswer, hchunk, -⟩ := h.write_reliable hb ha hs hr
  refine ⟨?_, ?_, ?_⟩
  · rw [hanswer, usedBytes_of_empty hempty]
  · have hnone : r.pooled.flatMap (fun b => b.committed.bytes) = [] :=
      List.flatMap_eq_nil_iff.2 fun b hm => Buffer.isEmpty_iff.1 (hempty b hm)
    rw [hchunk, hnone, List.append_nil]
  · -- Neither is the recorder aborted, nor is anything left to drain.
    rcases h.shift hb with ⟨ha', -, -⟩ | ⟨-, -, hok, -⟩ | ⟨-, hsome, -, -⟩
    · rw [ha] at ha'
      cases ha'
    · exact hok
    · exact absurd hempty hsome

end Recorder

namespace Run

variable {options : RecorderOptions} {run : Run}

/-- **No committed byte is stranded.**  All that is committed in a buffer, pooled or held by an open
writer, belongs to the current epoch, and no full buffer is empty.  So while no writer is open and
the sink accepts every call, a drain takes all that is pooled, which is as much as would be
discarded; and after either of the two there is nothing to drain.

The chunk gains the committed bytes of the pooled buffers, in the order in which drains visit the
pools, and the answer is their number. -/
theorem Reachable.generation (h : Reachable options run) :
    (∀ b ∈ run.recorder.pooled ++ run.held, b.used ≠ 0 →
      b.epoch = run.recorder.epoch.current) ∧
    (∀ kind, ∀ b ∈ (run.recorder.space kind).full, b.used ≠ 0) ∧
    ∀ s, run.recorder.aborted = false → run.writers = [] → run.recorder.sink = some s →
      s.Reliable →
      (Fallible.runOn Recorder.write run.recorder).1 =
        .ok (usedBytes run.recorder.pooled) ∧
      (Fallible.runOn Recorder.write run.recorder).2.chunk =
        run.recorder.chunk ++ run.recorder.pooled.flatMap (fun b => b.committed.bytes) ∧
      (Fallible.runOn Recorder.clear run.recorder).1 =
        .ok (usedBytes run.recorder.pooled) ∧
      (Fallible.runOn Recorder.write run.recorder).2.Drained ∧
      (Fallible.runOn Recorder.clear run.recorder).2.Drained := by
  have hs := h.sound
  refine ⟨?_, ?_, ?_⟩
  · intro b hb hu
    have hc : b.isEmpty = false := by simpa [Buffer.isEmpty] using hu
    exact (hs.recorder.order _
      (List.mem_filterMap.2 ⟨b, hb, Buffer.load?_of_not_isEmpty hc⟩)).epoch
  · intro kind b hb
    have hc := ((hs.recorder.pool kind).full b hb).used
    simpa [Buffer.isEmpty] using hc
  · intro s ha hw hsink hr
    have hsound := hs.recorder
    rw [held_eq_nil hw] at hsound
    obtain ⟨hanswer, hchunk, s', hr', hsur, hsound', hempty⟩ :=
      hsound.write_reliable hs.barrier ha hsink hr
    obtain ⟨hcleared, hsound'', hpooled, hsur', -⟩ := hsound.clear hs.barrier
    refine ⟨hanswer, hchunk, hcleared, ?_, ?_⟩
    · generalize (Fallible.runOn Recorder.write run.recorder).2 = r at hsur hsound' hempty
      have he : r.epoch = run.recorder.epoch := (Recorder.epoch_eq_of_surroundings_eq hsur :)
      have ha' : r.aborted = false := (Recorder.aborted_eq_of_surroundings_eq hsur).trans ha
      have hsink' : r.sink = some s' := (Recorder.sink_eq_of_surroundings_eq hsur :)
      exact Recorder.Sound.drained (he ▸ hsound') (he ▸ hs.barrier) ha' hsink' hr' hempty
    · generalize (Fallible.runOn Recorder.clear run.recorder).2 = r at hsur' hsound'' hpooled
      have he : r.epoch = run.recorder.epoch := Recorder.epoch_eq_of_surroundings_eq hsur'
      have ha' : r.aborted = false := (Recorder.aborted_eq_of_surroundings_eq hsur').trans ha
      have hsink' : r.sink = some s := (Recorder.sink_eq_of_surroundings_eq hsur').trans hsink
      refine Recorder.Sound.drained (he ▸ hsound'') (he ▸ hs.barrier) ha' hsink' hr ?_
      rw [hpooled]
      intro b hb
      cases hb

/-- A checkpoint in two pieces waits for its first drain, which takes both pieces. -/
theorem Reachable.generation_two_pieces :
    let before := small.walk [.start 7 .threadLocal, .append 0 (List.replicate 20 1),
      .append 0 (List.replicate 40 2), .finish 0]
    let run := before.step (.installSink {})
    (Fallible.runOn Recorder.write run.recorder).1 = .ok 124 ∧
      (Fallible.runOn Recorder.clear run.recorder).1 = .ok 124 ∧
      (Fallible.runOn Recorder.write run.recorder).2.Drained ∧
      (Fallible.runOn Recorder.clear run.recorder).2.Drained := by
  intro before run
  have h : Reachable smallOptions run :=
    ((Reachable.create create_small).walk _ (by decide +kernel)).step _ (by decide +kernel)
  have hnone : before.recorder.sink = none := Option.isNone_iff_eq_none.1 (by decide +kernel)
  have hsink : run.recorder.sink = some {} := by
    simp [run, Run.step, Run.act, Run.perform, Recorder.installSink, hnone]
  have hused : usedBytes run.recorder.pooled = 124 := by decide +kernel
  obtain ⟨hwrite, -, hclear, hw, hc⟩ := h.generation.2.2 {} (by decide +kernel) (by decide +kernel)
    hsink ⟨fun _ => rfl, fun _ => rfl⟩
  rw [hused] at hwrite hclear
  exact ⟨hwrite, hclear, hw, hc⟩

end Run

end TraceRecorder
