/-
# Drains take everything of an epoch

A drain first takes buffers out of the pools (`Sound.detachWhere`): those that pass a test, in the
order in which they are emitted, and no others.  All that is committed in a pool belongs to the
current epoch, so a drain of that epoch leaves only empty buffers behind, and then nothing stands
against a shift (`undrained_eq_zero_iff`).

* `Sound.write`: the current epoch is emitted, as far as the sink goes along;
* `Sound.clear`: everything that is pooled is discarded, and its bytes are counted;
* `Sound.shift`: the epoch flips exactly if nothing of it is left.
-/
import TraceRecorder.Proofs.Recorder.Deliveries
import TraceRecorder.Proofs.Recorder.Emissions

namespace TraceRecorder

open Fallible (Ends)

namespace Recorder

variable {r : Recorder} {out : List Buffer} {e : Epoch}

/-! ## 1. Taking buffers out of the pools -/

/-- The buffers that pass a test leave the pools. -/
def detachWhere (test : Buffer → Bool) : Action Detached := do
  let global ← onSpace .global (Space.takeFullWhere test)
  let full ← onSpace .threadLocal (Space.takeFullWhere test)
  let bound ← takeBound test
  let virtual ← onSpace .virtualThreadLocal (Space.takeFullWhere test)
  pure ⟨global, full ++ bound, virtual⟩

theorem detach_eq (e : Epoch) : detach e = detachWhere fun b => b.epoch == e := rfl

theorem detachAll_eq : detachAll = detachWhere fun _ => true := rfl

/-- The full buffers of one pool that pass a test are out. -/
theorem Sound.takeFullWhere (h : r.Sound out e) (kind : BufferKind) (test : Buffer → Bool) :
    ∃ s, Fallible.runOn (onSpace kind (Space.takeFullWhere test)) r =
        (.ok ((r.space kind).full.filter test).reverse, r.setSpace kind s) ∧
      s.full = (r.space kind).full.filter (fun b => !test b) ∧
      s.bindings = (r.space kind).bindings ∧
      Trades r out (r.setSpace kind s) (((r.space kind).full.filter test).reverse ++ out) e {} := by
  obtain ⟨a, hrun, hs, hlive⟩ := (h.pool kind).takeFullWhere test
  refine ⟨{ r.space kind with
    arena := a, full := (r.space kind).full.filter fun b => !test b }, ?_, rfl, rfl, ?_⟩
  · simp only [onSpace, Fallible.runOn_zoom, hrun]
    rfl
  · refine Sound.trade (f := id) kind [] _ out h hs rfl rfl (by simp) ?_ ?_ rfl rfl
    · show a.live + _ + _ = _ + _ + _
      rw [hlive]
      rfl
    · have hsplit := (List.filter_append_perm test (r.space kind).full).filterMap Buffer.load?
      rw [List.perm_iff_count] at hsplit ⊢
      intro x
      have hx := hsplit x
      simp only [Space.pooled, Space.boundBuffers, List.filterMap_append, List.count_append,
        List.filterMap_reverse, List.count_reverse, List.append_nil] at hx ⊢
      omega

theorem Sound.takeBound (h : r.Sound out e) (test : Buffer → Bool) :
    Trades r out { r with threadLocal := r.threadLocal.withoutBound test }
      (r.threadLocal.boundWhere test ++ out) e {} := by
  have hs := (h.pool .threadLocal).withoutBound test
  refine Sound.trade (f := id) .threadLocal [] _ out h hs rfl rfl (by simp) rfl ?_ rfl rfl
  have hp := (Space.perm_withoutBound r.threadLocal test).filterMap Buffer.load?
  rw [List.perm_iff_count] at hp ⊢
  intro x
  have hx := hp x
  simp only [Space.pooled, List.filterMap_append, List.count_append, List.append_nil] at hx ⊢
  simp only [Space.withoutBound, space] at hx ⊢
  omega

theorem boundWhere_eq (s : Space) (test : Buffer → Bool) :
    s.boundWhere test = s.boundBuffers.filter test := by
  unfold Space.boundWhere Space.boundBuffers Dict.values
  generalize s.bindings = d
  induction d with
  | nil => rfl
  | cons entry rest ih =>
    obtain ⟨thread, _ | b⟩ := entry
    · exact ih
    · by_cases ht : test b = true <;> simp_all [Option.filter]

theorem boundBuffers_withoutBound (s : Space) (test : Buffer → Bool) :
    (s.withoutBound test).boundBuffers = s.boundBuffers.filter fun b => !test b := by
  unfold Space.withoutBound Space.boundBuffers Dict.values
  generalize s.bindings = d
  induction d with
  | nil => rfl
  | cons entry rest ih =>
    obtain ⟨thread, _ | b⟩ := entry
    · exact ih
    · by_cases ht : test b = true <;> simp_all [Option.filter]

theorem Sound.pooled_eq (h : r.Sound out e) :
    r.pooled = r.global.full.reverse ++ (r.threadLocal.full.reverse ++
      (r.threadLocal.boundBuffers ++ r.virtualThreadLocal.full.reverse)) := by
  have hg : r.global.boundBuffers = [] := h.boundBuffers_eq_nil .global (by decide)
  have hv : r.virtualThreadLocal.boundBuffers = [] :=
    h.boundBuffers_eq_nil .virtualThreadLocal (by decide)
  simp [pooled, BufferKind.all, space, Space.pooled, hg, hv]

theorem Sound.kind_of_mem_pooled (h : r.Sound out e) (kind : BufferKind) {b : Buffer}
    (hb : b ∈ (r.space kind).pooled) : b.kind = kind := by
  have hm : b ∈ (r.space kind).buffers (ofKind kind out) := by
    rcases List.mem_append.1 hb with hb | hb
    · exact Space.mem_buffers.2 (.inr (.inl (List.mem_reverse.1 hb)))
    · exact Space.mem_buffers.2 (.inr (.inr (.inl hb)))
  exact ((h.pool kind).fits b hm).kind.trans (h.kind kind)

/-- **The buffers that pass a test leave the pools**, in order, and no others.  This is the first
half of every drain; the test is on the epoch for those that send, and lets all pass for a discard.
-/
theorem Sound.detachWhere (h : r.Sound out e) (test : Buffer → Bool) :
    Ends (detachWhere test) r fun answer r' => ∃ d, answer = .ok d ∧ Detached.Sorted d.parts ∧
      d.buffers = r.pooled.filter test ∧ r'.pooled = r.pooled.filter (fun b => !test b) ∧
      Trades r out r' (d.buffers ++ out) e {} := by
  obtain ⟨g, hrung, hgf, hgb, htg⟩ := h.takeFullWhere .global test
  obtain ⟨t, hrunt, htf, htb, htt⟩ := htg.sound.takeFullWhere .threadLocal test
  have hbound := htt.sound.takeBound test
  obtain ⟨v, hrunv, hvf, hvb, htv⟩ := hbound.sound.takeFullWhere .virtualThreadLocal test
  have hall := htg.nothing_trans (htt.nothing_trans (hbound.nothing_trans htv))
  have hbufs : t.boundBuffers = r.threadLocal.boundBuffers := by
    rw [Space.boundBuffers, htb]
    rfl
  have hfull : ∀ (kind : BufferKind) {b : Buffer},
      b ∈ ((r.space kind).full.filter test).reverse → b.kind = kind := by
    intro kind b hb
    refine h.kind_of_mem_pooled kind (List.mem_append_left _ (List.mem_reverse.2 ?_))
    exact (List.mem_filter.1 (List.mem_reverse.1 hb)).1
  refine Ends.after hrung (Ends.after hrunt (Ends.after rfl (Ends.after hrunv
    (Ends.of_run (Fallible.runOn_pure _ _) ⟨_, rfl, ?_, ?_, ?_, ?_⟩))))
  · intro part hp b hb
    simp only [Detached.parts, List.mem_cons, List.not_mem_nil, or_false] at hp
    rcases hp with rfl | rfl | rfl
    · exact hfull .global hb
    · rcases List.mem_append.1 hb with hb | hb
      · exact hfull .threadLocal hb
      · refine h.kind_of_mem_pooled .threadLocal (List.mem_append_right _ ?_)
        rw [boundWhere_eq] at hb
        exact hbufs ▸ (List.mem_filter.1 hb).1
    · exact hfull .virtualThreadLocal hb
  · rw [h.pooled_eq]
    simp only [Detached.buffers, Detached.parts, List.flatMap_cons, List.flatMap_nil,
      List.append_nil, List.filter_append, List.filter_reverse, boundWhere_eq, List.append_assoc]
    rw [← hbufs]
    rfl
  · rw [hall.sound.pooled_eq, h.pooled_eq]
    show g.full.reverse ++ (t.full.reverse ++ ((t.withoutBound test).boundBuffers ++
      v.full.reverse)) = _
    rw [boundBuffers_withoutBound, hgf, htf, hvf, hbufs]
    simp only [List.filter_append, List.filter_reverse]
    rfl
  · refine hall.perm ?_
    simp only [Detached.buffers, Detached.parts, List.flatMap_cons, List.flatMap_nil,
      List.append_nil]
    rw [List.perm_iff_count]
    intro x
    simp only [List.count_append]
    omega

/-! ## 2. The barrier -/

/-- **An operation under the barrier** sees it up, and it is down again afterwards. -/
theorem runOn_underBarrier {α : Type} {x : Epoch → Action α} {answer : Except Fault α}
    {r₁ : Recorder} (hr : Fallible.runOn (x r.epoch.current) (r.moveEpoch EpochController.raise) =
      (answer, r₁)) :
    Fallible.runOn (underBarrier x) r = (answer, r₁.moveEpoch EpochController.lower) := by
  simp [underBarrier, hr]

theorem ends_underBarrier {α : Type} {x : Epoch → Action α}
    {mid post : Except Fault α → Recorder → Prop}
    (hx : Ends (x r.epoch.current) (r.moveEpoch EpochController.raise) mid)
    (h : ∀ answer r₁, mid answer r₁ → post answer (r₁.moveEpoch EpochController.lower)) :
    Ends (underBarrier x) r post := by
  rcases hr : Fallible.runOn (x r.epoch.current) (r.moveEpoch EpochController.raise) with
    ⟨answer, r₁⟩
  exact Ends.of_run (runOn_underBarrier hr) (h answer r₁ (hx.run_eq hr))

theorem Trades.lower {r' : Recorder} {out' : List Buffer} {p : Published}
    (h : Trades (r.moveEpoch EpochController.raise) out r' out' e p) (hb : r.epoch.barrier = none) :
    Trades r out (r'.moveEpoch EpochController.lower) out' e p := by
  have hm := h.moveEpoch EpochController.lower
  have hback : (r.moveEpoch EpochController.raise).moveEpoch EpochController.lower = r := by
    show { r with epoch := r.epoch.raise.lower } = r
    rw [EpochController.lower_raise hb]
  rwa [hback] at hm

theorem ends_ensureLive : Ends ensureLive r fun answer r' => r' = r ∧
    ((r.aborted = true ∧ answer = .error (.recorder .aborted)) ∨
      (r.aborted = false ∧ answer = .ok ())) := by
  unfold ensureLive
  refine Ends.after (Fallible.runOn_get r) ?_
  cases ha : r.aborted with
  | true => exact ⟨rfl, .inl ⟨rfl, rfl⟩⟩
  | false => exact ⟨rfl, .inr ⟨rfl, rfl⟩⟩

theorem ends_ensureSink : Ends ensureSink r fun answer r' => r' = r ∧
    ((r.sink = none ∧ answer = .error (.recorder .noSink)) ∨
      ((∃ s, r.sink = some s) ∧ answer = .ok ())) := by
  unfold ensureSink
  refine Ends.after (Fallible.runOn_get r) ?_
  cases hs : r.sink with
  | none => exact ⟨rfl, .inl ⟨rfl, rfl⟩⟩
  | some s => exact ⟨rfl, .inr ⟨⟨s, rfl⟩, rfl⟩⟩

/-- **What a drain needs before it begins**: the recorder was not aborted, and it has a sink. -/
theorem ends_ready {α : Type} {x : Action α} {post : Except Fault α → Recorder → Prop}
    (hx : r.aborted = false → (∃ s, r.sink = some s) → Ends x r post)
    (hno : ∀ fault, r.aborted = true ∨ r.sink = none → post (.error fault) r) :
    Ends (do ensureLive; ensureSink; x) r post := by
  refine ends_ensureLive.bind ?_ ?_
  · rintro _ r₁ ⟨rfl, ⟨-, ha⟩ | ⟨hlive, -⟩⟩
    · cases ha
    refine ends_ensureSink.bind ?_ ?_
    · rintro _ r₂ ⟨rfl, ⟨-, ha⟩ | ⟨hsink, -⟩⟩
      · cases ha
      · exact hx hlive hsink
    · rintro fault r₂ ⟨rfl, ⟨hs, -⟩ | ⟨-, hok⟩⟩
      · exact hno fault (.inr hs)
      · cases hok
  · rintro fault r₁ ⟨rfl, ⟨ha, -⟩ | ⟨-, hok⟩⟩
    · exact hno fault (.inl ha)
    · cases hok

/-! ## 3. Shifts -/

theorem Sound.undrained_eq (h : r.Sound out e) (epoch : Epoch) :
    r.undrained epoch = (r.pooled.filter fun b => b.epoch == epoch && !b.isEmpty).length := by
  rw [h.pooled_eq]
  simp only [undrained, Space.undrained, List.filter_append, List.length_append,
    List.filter_reverse, List.length_reverse, boundWhere_eq, List.countP_eq_length_filter]
  omega

theorem Sound.epoch_of_mem_pooled (h : r.Sound out e) {b : Buffer} (hb : b ∈ r.pooled)
    (hc : b.isEmpty = false) : b.epoch = e := by
  have hl : (⟨b.committed.bytes, b.epoch⟩ : Load) ∈ r.loads out :=
    List.mem_filterMap.2 ⟨b, List.mem_append_left _ hb, Buffer.load?_of_not_isEmpty hc⟩
  exact (h.order _ hl).epoch

/-- **Nothing stands against a shift exactly if all that is pooled is empty.** -/
theorem Sound.undrained_eq_zero_iff (h : r.Sound out e) :
    r.undrained e = 0 ↔ ∀ b ∈ r.pooled, b.isEmpty = true := by
  rw [h.undrained_eq, List.length_eq_zero_iff, List.filter_eq_nil_iff]
  refine forall_congr' fun b => forall_congr' fun hb => ?_
  cases hc : b.isEmpty with
  | true => simp
  | false => simp [h.epoch_of_mem_pooled hb hc]

theorem Sound.retag (h : r.Sound out e) (hempty : ∀ b ∈ r.pooled ++ out, b.isEmpty = true)
    (e' : Epoch) : r.Sound out e' :=
  { h with
    order := by
      intro l hl
      obtain ⟨b, hb, hload⟩ := List.mem_filterMap.1 hl
      rw [Buffer.load?_of_isEmpty (hempty b hb)] at hload
      cases hload }

theorem runOn_shiftUnderBarrier_of_zero {epoch : Epoch} (h : r.undrained epoch = 0) :
    Fallible.runOn (shiftUnderBarrier epoch) r =
      (.ok (r.epoch.flip).current, r.moveEpoch EpochController.flip) := by
  simp [shiftUnderBarrier, h]
  rfl

theorem runOn_shiftUnderBarrier_of_ne {epoch : Epoch} (h : r.undrained epoch ≠ 0) :
    Fallible.runOn (shiftUnderBarrier epoch) r =
      (.error (.recorder (.undrained (r.undrained epoch) epoch)), { r with aborted := true }) := by
  simp [shiftUnderBarrier, h]

/-- **The epoch flips if all that is pooled is empty**, and otherwise the recorder is aborted. -/
theorem Sound.shift (h : r.Sound out r.epoch.current) (hb : r.epoch.barrier = none) :
    Ends shift r fun answer r' =>
      (r.aborted = true ∧ answer = .error (.recorder .aborted) ∧ r' = r) ∨
      (r.aborted = false ∧ (∀ b ∈ r.pooled, b.isEmpty = true) ∧
        answer = .ok r.epoch.current.other ∧ r' = r.moveEpoch EpochController.shifted) ∨
      (r.aborted = false ∧ (¬ ∀ b ∈ r.pooled, b.isEmpty = true) ∧
        answer = .error (.recorder (.undrained (r.undrained r.epoch.current) r.epoch.current)) ∧
        r' = { r with aborted := true }) := by
  unfold Recorder.shift
  refine ends_ensureLive.bind ?_ ?_
  · rintro _ r₁ ⟨rfl, ⟨-, ha⟩ | ⟨hlive, -⟩⟩
    · cases ha
    · have hund : (r₁.moveEpoch EpochController.raise).undrained r₁.epoch.current =
          r₁.undrained r₁.epoch.current := rfl
      by_cases hz : r₁.undrained r₁.epoch.current = 0
      · refine Ends.of_run (runOn_underBarrier (runOn_shiftUnderBarrier_of_zero (hund.trans hz))) ?_
        refine .inr (.inl ⟨hlive, h.undrained_eq_zero_iff.1 hz, rfl, ?_⟩)
        show { r₁ with epoch := r₁.epoch.raise.flip.lower } = _
        rw [EpochController.lower_flip_raise hb]
        rfl
      · refine Ends.of_run (runOn_underBarrier (runOn_shiftUnderBarrier_of_ne (hund ▸ hz))) ?_
        refine .inr (.inr ⟨hlive, fun hall => hz (h.undrained_eq_zero_iff.2 hall), rfl, ?_⟩)
        show { r₁ with epoch := r₁.epoch.raise.lower, aborted := true } = _
        rw [EpochController.lower_raise hb]
  · rintro fault r₁ ⟨rfl, ⟨ha, hf⟩ | ⟨-, hok⟩⟩
    · cases hf
      exact .inl ⟨ha, rfl, rfl⟩
    · cases hok

/-! ## 4. Writing and clearing -/

/-- Taking the epoch of a recorder takes all that carries anything. -/
theorem Sound.detach (h : r.Sound out e) :
    Ends (detach e) r fun answer r' => ∃ d, answer = .ok d ∧ Detached.Sorted d.parts ∧
      laden d.buffers = laden r.pooled ∧ (∀ b ∈ r'.pooled, b.isEmpty = true) ∧
      Trades r out r' (d.buffers ++ out) e {} := by
  rw [detach_eq]
  refine (h.detachWhere _).mono ?_
  rintro answer r' ⟨d, rfl, hk, hbuffers, hpooled, ht⟩
  refine ⟨d, rfl, hk, ?_, ?_, ht⟩
  · rw [hbuffers, laden, laden, List.filter_filter]
    refine List.filter_congr ?_
    intro b hb
    cases hc : b.isEmpty with
    | true => rfl
    | false => simp [h.epoch_of_mem_pooled hb hc]
  · intro b hb
    rw [hpooled] at hb
    obtain ⟨hm, hne⟩ := List.mem_filter.1 hb
    cases hc : b.isEmpty with
    | true => rfl
    | false =>
      rw [h.epoch_of_mem_pooled hm hc] at hne
      simp at hne

/-- **The first half of `write`**: all that is pooled and carries anything is detached. -/
theorem Sound.detachForWrite (h : r.Sound out r.epoch.current) (hb : r.epoch.barrier = none) :
    Ends detachForWrite r fun answer r' => match answer with
      | .error _ => r' = r ∧ (r.aborted = true ∨ r.sink = none)
      | .ok d => r.aborted = false ∧ (∃ s, r.sink = some s) ∧ Detached.Sorted d.parts ∧
          laden d.buffers = laden r.pooled ∧ (∀ b ∈ r'.pooled, b.isEmpty = true) ∧
          Trades r out r' (d.buffers ++ out) r.epoch.current {} := by
  unfold Recorder.detachForWrite
  refine ends_ready ?_ fun fault hno => ⟨rfl, hno⟩
  intro hlive hsink
  refine ends_underBarrier (h.moveEpoch EpochController.raise).detach ?_
  rintro _ r' ⟨d, rfl, hk, hladen, hempty, ht⟩
  exact ⟨hlive, hsink, hk, hladen, hempty, ht.lower hb⟩

/-- Pool by pool the buffers come back, and what they carried is counted. -/
theorem Sound.discardParts {parts : List (BufferKind × List Buffer)} {discarded : Nat}
    (h : r.Sound (parts.flatMap Prod.snd ++ out) e) (hk : Detached.Sorted parts) :
    Ends (discardParts parts discarded) r fun answer r' =>
      answer = .ok (discarded + usedBytes (parts.flatMap Prod.snd)) ∧ r'.Sound out e ∧
      r'.pooled = r.pooled ∧ r'.surroundings = r.surroundings ∧
      r'.stats.flushes = r.stats.flushes ∧
      r'.stats.checkpointsWritten = r.stats.checkpointsWritten := by
  induction parts generalizing r discarded with
  | nil => exact Ends.of_run (Fallible.runOn_pure _ _) ⟨rfl, h, rfl, rfl, rfl, rfl⟩
  | cons part rest ih =>
    obtain ⟨kind, buffers⟩ := part
    rw [List.flatMap_cons, List.append_assoc] at h
    unfold Recorder.discardParts
    have hkind : ∀ b ∈ buffers, b.kind = kind := hk _ List.mem_cons_self
    refine (Sound.reclaim kind buffers h.husks hkind).next ?_
    rintro r₁ ⟨hs₁, hpooled, hsur, -, gone, -, hstats⟩
    refine (ih hs₁ (fun part hp => hk part (List.mem_cons_of_mem _ hp))).mono ?_
    rintro answer r' ⟨rfl, hs', hpooled', hsur', hc, hl⟩
    refine ⟨?_, hs', hpooled'.trans hpooled, hsur'.trans hsur, ?_, ?_⟩
    · rw [List.flatMap_cons, usedBytes_append, Nat.add_assoc]
    · rw [hc, hstats]
    · rw [hl, hstats]

/-- **The current epoch is drained**, unless the recorder was aborted or has no sink.  A sink that
accepts every call takes all that is pooled. -/
theorem Sound.write (h : r.Sound out r.epoch.current) (hb : r.epoch.barrier = none) :
    Ends write r fun answer r' =>
      Settles r out r' out
        { accepted := r.sent Recorder.detachForWrite
          unsent := r.unsent Recorder.detachForWrite } ∧
      ((r' = r ∧ (∃ fault, answer = .error fault) ∧ (r.aborted = true ∨ r.sink = none)) ∨
        ∃ s s', r.sink = some s ∧ r'.surroundings = (r.withSink s').surroundings ∧
          r'.Sound out r.epoch.current ∧ (∀ b ∈ r'.pooled, b.isEmpty = true) ∧
          (s.Reliable → s'.Reliable ∧ answer = .ok (usedBytes r.pooled) ∧
            r.sent Recorder.detachForWrite =
              (laden r.pooled).flatMap fun b => b.committed.bytes)) := by
  have hfirst := Sound.detachForWrite h hb
  rcases hrun : Fallible.runOn Recorder.detachForWrite r with ⟨fault | d, r₁⟩
  · obtain ⟨rfl, hwhy⟩ := hfirst.run_eq hrun
    refine Ends.stop hrun ⟨?_, .inl ⟨rfl, ⟨fault, rfl⟩, hwhy⟩⟩
    rw [sent, unsent, hrun]
    exact (Trades.refl h).settles
  · obtain ⟨-, ⟨s, hs⟩, hk, hladen, hempty, ht⟩ := hfirst.run_eq hrun
    have hs₁ : r₁.sink = some s := (sink_eq_of_surroundings_eq ht.surroundings).trans hs
    have hused : usedBytes d.buffers = usedBytes r.pooled := by
      rw [← usedBytes_laden, hladen, usedBytes_laden]
    refine (ends_drain hrun ht.sound hk hs₁).mono ?_
    rintro answer r' ⟨s', hs', honly, hsettles, hreliable⟩
    refine ⟨ht.settles.thenSent hsettles, .inr ⟨s, s', hs, ?_, hs', ?_, ?_⟩⟩
    · exact honly.surroundings.trans (withSink_surroundings_eq ht.surroundings s')
    · rw [honly.pooled]
      exact hempty
    · rwa [hused, hladen] at hreliable

/-- **Everything that is pooled is discarded**, and the answer is how many bytes that was. -/
theorem Sound.clear (h : r.Sound out r.epoch.current) (hb : r.epoch.barrier = none) :
    Ends clear r fun answer r' => answer = .ok (usedBytes r.pooled) ∧
      r'.Sound out r.epoch.current ∧ r'.pooled = [] ∧ r'.surroundings = r.surroundings ∧
      Settles r out r' out { discarded := r.pooled.flatMap Buffer.entries } := by
  have hdetach : Ends (underBarrier fun _ => detachAll) r fun answer r' => ∃ d, answer = .ok d ∧
      Detached.Sorted d.parts ∧ d.buffers = r.pooled ∧ r'.pooled = [] ∧
      Trades r out r' (d.buffers ++ out) r.epoch.current {} := by
    rw [detachAll_eq]
    refine ends_underBarrier ((h.moveEpoch EpochController.raise).detachWhere fun _ => true) ?_
    rintro _ r' ⟨d, rfl, hk, hbuffers, hpooled, ht⟩
    refine ⟨d, rfl, hk, ?_, ?_, ht.lower hb⟩
    · rw [hbuffers]
      exact List.filter_eq_self.2 fun _ _ => rfl
    · show r'.pooled = []
      rw [hpooled]
      exact List.filter_eq_nil_iff.2 fun _ _ => Bool.false_ne_true
  unfold Recorder.clear
  refine hdetach.bind ?_ ?_
  · rintro d r₁ ⟨_, ⟨⟩, hk, hbuffers, hpooled, ht⟩
    refine (ht.sound.discardParts hk).next ?_
    rintro r₂ ⟨hs, hpooled', hsur, hc, hl⟩
    refine Ends.after (Fallible.runOn_modify _ _) (Ends.of_run (Fallible.runOn_pure _ _) ?_)
    have hsurroundings : r₂.surroundings = r.surroundings := hsur.trans ht.surroundings
    refine ⟨?_, hs.count rfl rfl, hpooled'.trans hpooled, hsurroundings, ?_⟩
    · show Except.ok (0 + usedBytes d.buffers) = _
      rw [hbuffers, Nat.zero_add]
    · refine ⟨?_, Entry.isRow_nil, ?_, hc.trans ht.cut, hl.trans ht.last⟩
      · intro x
        have hx := ht.entries x
        have hnone : (Published.entries {}).count x = 0 := rfl
        rw [Entry.split_nil, hnone]
        simp only [entries, pooled_count, hpooled', hpooled, hbuffers, List.flatMap_append,
          List.count_append, List.nil_append, List.count_nil, hnone] at hx ⊢
        omega
      · rw [List.append_nil]
        exact chunk_eq_of_surroundings_eq hsurroundings
  · rintro _ _ ⟨_, hok, -⟩
    cases hok

end Recorder

end TraceRecorder
