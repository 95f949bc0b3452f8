/-
# Renewals in a run

A buffer that an open writer holds may be exchanged for a larger one in any reachable run, whatever
is pending in it by then.  `Reachable.renewal` says when that is refused, what the fresh buffer is
like, and where the old one goes.

Whether the pool has something for a request is up to what is needed alone: neither the growth
factor nor the usual size of buffers has a say in it.  But what is asked for beyond that may be more
than there is memory for.  Options that pass their checks can make it more than can be addressed on
any machine, and then the thread ends, and the committed bytes of the old buffer are lost
(`renewal_unaddressable`).  -/
import TraceRecorder.Proofs.Recorder.Renewals
import TraceRecorder.Proofs.Run.Steps

namespace TraceRecorder

namespace Run

variable {options : RecorderOptions} {run : Run} {b : Buffer}

theorem Sound.epoch_of_held (h : run.Sound options) (hb : b ∈ run.held) :
    b.epoch = run.recorder.epoch.current := by
  obtain ⟨w, hw, hbuffer⟩ := List.mem_filterMap.1 hb
  rcases (h.writers w hw).1 with hgone | ⟨b', segments, hholds⟩
  · rw [hgone.buffer] at hbuffer
    cases hbuffer
  · rw [hholds.buffer] at hbuffer
    cases hbuffer
    exact hholds.epoch

/-- **A writer may have anything pending that fits into its buffer.** -/
theorem Sound.with_pending (h : run.Sound options) (hb : b ∈ run.held) {pending : Tape}
    (hp : b.used + pending.length ≤ b.capacity) :
    run.recorder.Sound ({ b with pending := pending } :: run.held.erase b) b.epoch := by
  have hs := h.recorder.perm (List.perm_cons_erase hb)
  rw [← h.epoch_of_held hb] at hs
  let written := { b with pending := pending }
  have hf : written.Fits b.kind (run.recorder.options.space b.kind) :=
    { hs.fits with within := hp }
  have hid : written.id = b.id := rfl
  exact (hs.exchange hid hf rfl).sound

theorem Sound.word_of_addressable (h : run.Sound options) (hb : b ∈ run.held) {pending : Tape}
    (hp : b.used + pending.length ≤ b.capacity) {size : Nat} (hs : size ≤ Memory.addressable) :
    size + pending.length < UInt64.size := by
  have hgranted := (h.with_pending hb hp).fits.granted
  have haddressable : Memory.addressable + Memory.addressable < UInt64.size := by decide
  dsimp only at hgranted
  omega

/-- **A buffer that a writer holds is exchanged for a larger one whenever that can be.**

* It is refused as exhaustion exactly if what is needed is beyond what the pool allows, or no buffer
  is free and there may be no more of them.
* The thread ends exactly if the pool is not exhausted but starved: no free buffer has the size that
  is asked for, which the growth factor has a say in, and memory for it is refused.
* What is needed is the sum of what is to come and what is pending.  It is a 64-bit word if what is
  to come can stand in memory.  Then there is no other fault, so where there is memory for whatever
  the pool allows the need is met unless the pool is exhausted.  A sum that is no word starts again
  at zero, and then the fresh buffer may be too small even for the pending bytes.
* A refusal costs the old buffer what is pending, but it stands behind all full buffers with its
  committed bytes, or is free or gone if it had none.  If the thread ends all its bytes are lost:
  its slot stays leased, but nobody has it.
* If the need is met the fresh buffer has the epoch, the kind and the pending bytes of the old one,
  nothing committed, and the room that was asked for if the need is a word; and the old one is where
  it is after a refusal. -/
theorem Reachable.renewal (h : Reachable options run) (hb : b ∈ run.held) (pending : Tape)
    (hp : b.used + pending.length ≤ b.capacity) (thread : ThreadId) (size : Nat) :
    let r := run.recorder
    let old := { b with pending := pending }
    let others := run.held.erase b
    let o := options.space b.kind
    let pool := r.space b.kind
    let request := options.renewalRequest b.kind (old.needed size)
    let renewed := Fallible.runOn (Recorder.renew old thread size b.kind) r
    ((∃ fault, renewed.1 = .error fault ∧ fault.isExhausted = true) ↔
      pool.Exhausted (old.needed size)) ∧
    (∀ m, renewed.1 = .error (.pool (.memory m)) ↔
      ¬ pool.Exhausted (old.needed size) ∧ r.Starved b.kind request m) ∧
    (∀ fault, renewed.1 = .error fault → fault.isExhausted = true ∨
      (∃ m, fault = .pool (.memory m)) ∨
      (fault = .recorder .renewalTooSmall ∧ UInt64.size ≤ size + pending.length)) ∧
    (size ≤ Memory.addressable → size + pending.length < UInt64.size) ∧
    (size + pending.length < UInt64.size →
      old.needed size = size + pending.length ∧
      ((∃ fresh, renewed.1 = .ok fresh) ↔
        ¬ pool.Exhausted (size + pending.length) ∧ ∀ m, ¬ r.Starved b.kind request m) ∧
      ((∀ n ≤ o.maxBufferSize, Memory.refusal? r.host.memory.grants n = none) →
        ((∃ fresh, renewed.1 = .ok fresh) ↔ ¬ pool.Exhausted (size + pending.length)))) ∧
    (∀ fault, renewed.1 = .error fault → renewed.2.stats.renewals = r.stats.renewals ∧
      (fault.endsThread = false → r.Stowed old renewed.2 others) ∧
      (fault.endsThread = true → r.Stranded old renewed.2 others)) ∧
    (∀ fresh, renewed.1 = .ok fresh → fresh.Succeeds old o ∧
      (size + pending.length < UInt64.size → size ≤ fresh.free) ∧
      r.Stowed old renewed.2 (fresh :: others) ∧
      renewed.2.stats.renewals = r.stats.renewals + 1) := by
  intro r old others o pool request renewed
  have ho : r.options = options := h.sound.options
  have hs : r.Sound (old :: others) old.epoch := h.sound.with_pending hb hp
  have hend : r.Renewed old size others renewed.1 renewed.2 := hs.renewed thread size
  have hok (hword : size + old.pending.length < UInt64.size) := hend.ok_iff hword
  have hmemory := hs.not_starved size
  have hfresh (fresh : Buffer) (hfresh : renewed.1 = .ok fresh) :=
    (hfresh ▸ hend : r.Renewed old size others (.ok fresh) renewed.2).of_ok
  have hstarved := hend.memory_iff
  rw [ho] at hok hmemory hfresh hstarved
  refine ⟨hend.exhausted_iff, hstarved, fun fault hfault => ?_, h.sound.word_of_addressable hb hp,
    fun hword => ?_, fun fault hfault => ?_, hfresh⟩
  · rw [hfault] at hend
    exact hend.of_error
  · have hneeded : old.needed size = size + pending.length := Buffer.needed_of_lt hword
    have hmet := hok hword
    rw [hneeded] at hmet hmemory
    refine ⟨hneeded, hneeded ▸ hmet, fun hm => ?_⟩
    rw [hmet]
    exact ⟨And.left, fun hpool => ⟨hpool, hmemory hpool hm⟩⟩
  · rw [hfault] at hend
    exact ⟨hend.renewals_of_error, hend.stowed_of_error, hend.stranded_of_error⟩

/-- A bound buffer with committed bytes is too small for a segment.  All buffers that there may be
are there, and growth would go beyond what the pool allows: the free one is given up, and the bound
one is full. -/
theorem Reachable.renewal_evicting :
    let run := small.walk [.start 7 .threadLocal, .append 0 (List.replicate 40 1), .finish 0,
      .start 7 .threadLocal]
    (run.recorder.space .threadLocal).arena.live = (smallOptions.space .threadLocal).limit ∧
    ∃ b ∈ run.held, b.kind = .threadLocal ∧ b.used = 72 ∧ b.pending.length = 32 ∧
      ∃ fresh r', Fallible.runOn (Recorder.renew b 7 40 b.kind) run.recorder = (.ok fresh, r') ∧
        fresh.pending = b.pending ∧ 40 ≤ fresh.free ∧ fresh.capacity ≤ 128 ∧
        (r'.space b.kind).full = [b.rewind.retire] := by
  intro run
  have h : Reachable smallOptions run := (Reachable.create create_small).walk _ (by decide +kernel)
  have hheld : run.held.map (fun b => (b.used, b.pending.length, b.capacity, b.kind)) =
      [(72, 32, 128, .threadLocal)] := by decide +kernel
  obtain ⟨b, hb, hshape⟩ := List.map_eq_singleton_iff.1 hheld
  simp only [Prod.mk.injEq] at hshape
  obtain ⟨hused, hpending, hcapacity, hkind⟩ := hshape
  have hmem : b ∈ run.held := hb ▸ List.mem_singleton_self b
  have hneed : 40 + b.pending.length < UInt64.size := by
    rw [hpending]
    decide
  have hpool : ¬ (run.recorder.space b.kind).Exhausted (40 + b.pending.length) := by
    rw [hkind, hpending]
    unfold Space.Exhausted
    decide +kernel
  have hmemory : ∀ n ≤ (smallOptions.space b.kind).maxBufferSize,
      Memory.refusal? run.recorder.host.memory.grants n = none := by
    rw [hkind]
    decide +kernel
  obtain ⟨-, -, -, -, hword, -, hfresh⟩ := Reachable.renewal h hmem b.pending (by omega) 7 40
  obtain ⟨fresh, hok⟩ := ((hword hneed).2.2 hmemory).2 hpool
  obtain ⟨hnew, hroom, hold, -⟩ := hfresh fresh hok
  have hcapacity : fresh.capacity ≤ 128 := by
    have hmost := hnew.capacity
    rwa [hkind] at hmost
  have hempty : b.isEmpty = false := by
    rw [Buffer.isEmpty, hused]
    rfl
  have hfull : (run.recorder.space b.kind).full = [] := by
    rw [hkind]
    decide +kernel
  refine ⟨by decide +kernel, b, hmem, hkind, hused, hpending, fresh, _, Prod.ext hok rfl,
    hnew.pending, hroom hneed, hcapacity, hold.full.trans ?_⟩
  show (if b.isEmpty then _ else b.rewind.retire :: (run.recorder.space b.kind).full) = _
  rw [hfull, hempty]
  rfl

/-- The options of a recorder whose buffers grow at once to what a word can count.  They pass their
checks. -/
def vastOptions : RecorderOptions :=
  let space : SpaceOptions := ⟨128, UInt64.size - 1, 1, 0, 4⟩
  ⟨space, space, space, UInt64.size / 128⟩

/-- **A renewal for which the pool has something can fail on any machine**, for its growth alone.  A
bound buffer with committed bytes is too small for 40 more; 72 are needed, but more are asked for
than have addresses.  The thread ends, and nobody has the committed bytes. -/
theorem renewal_unaddressable :
    vastOptions.flaw? = none ∧ ∃ run b, Reachable vastOptions run ∧ b ∈ run.held ∧ b.used = 72 ∧
      b.pending.length = 32 ∧
      ¬ (run.recorder.space b.kind).Exhausted (40 + b.pending.length) ∧
      run.fault? (.append 0 (List.replicate 40 1)) =
        some (.pool (.memory (.unaddressable (UInt64.size - 1)))) ∧
      ∃ r', Fallible.runOn (Recorder.renew b 7 40 b.kind) run.recorder =
          (.error (.pool (.memory (.unaddressable (UInt64.size - 1)))), r') ∧
        run.recorder.Stranded b r' (run.held.erase b) := by
  let start : Run :=
    { recorder :=
      { options := vastOptions
        global := .create .global vastOptions.global
        threadLocal := .create .threadLocal vastOptions.threadLocal
        virtualThreadLocal := .create .virtualThreadLocal vastOptions.virtualThreadLocal } }
  let run := start.walk [.start 7 .threadLocal, .append 0 (List.replicate 40 1), .finish 0,
    .start 7 .threadLocal]
  have hcreate : Recorder.create vastOptions {} = .ok start.recorder := rfl
  have h : Reachable vastOptions run := (Reachable.create hcreate).walk _ (by decide +kernel)
  have hheld : run.held.map (fun b => (b.used, b.pending.length, b.kind,
      faultOf (Fallible.runOn (Recorder.renew b 7 40 b.kind) run.recorder).1)) =
      [(72, 32, .threadLocal, some (.pool (.memory (.unaddressable (UInt64.size - 1)))))] := by
    decide +kernel
  obtain ⟨b, hb, hshape⟩ := List.map_eq_singleton_iff.1 hheld
  simp only [Prod.mk.injEq] at hshape
  obtain ⟨hused, hpending, hkind, hfault⟩ := hshape
  have hmem : b ∈ run.held := hb ▸ List.mem_singleton_self b
  have hpool : ¬ (run.recorder.space b.kind).Exhausted (40 + b.pending.length) := by
    rw [hkind, hpending]
    unfold Space.Exhausted
    decide +kernel
  refine ⟨by decide, run, b, h, hmem, hused, hpending, hpool, by decide +kernel, ?_⟩
  have hs := h.sound.recorder.perm (List.perm_cons_erase hmem)
  rw [← h.sound.epoch_of_held hmem] at hs
  have hend := hs.renewed 7 40
  rcases hrun : Fallible.runOn (Recorder.renew b 7 40 b.kind) run.recorder with ⟨answer, r'⟩
  rw [hrun] at hfault
  rcases answer with fault | fresh
  · obtain rfl := Option.some.inj hfault
    exact ⟨r', rfl, (hend.run_eq hrun).stranded_of_error rfl⟩
  · cases hfault

end Run

end TraceRecorder
