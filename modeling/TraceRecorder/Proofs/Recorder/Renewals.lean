/-
# A buffer is exchanged for a larger one

A renewal needs room for the pending bytes and for what is to come.  It asks for at least that much,
and beyond it for what the growth factor gives, as far as the pool allows.  So growth never makes a
request too large for the pool: it has something for what is asked for exactly if it has something
for what is needed (`Space.exhausted_renewalRequest_iff`).  But growth can make a request too large
for the memory.

`Renewed` are the ways in which a renewal ends, and `Sound.renewed` says that there are no others:

* the pool is exhausted;
* the pool is `Starved`: there is no memory for a buffer of the size that is asked for;
* what is needed is no 64-bit word.  Then it is taken for less than it is, and the fresh buffer may
  be too small even for the pending bytes;
* a fresh buffer takes over the epoch and the pending bytes of the old one.

For want of memory the old buffer is `Stranded`, and what it had committed is lost with it.  In all
other ways it is `Stowed`: behind the full buffers with its committed bytes, or free or gone if it
has none.
-/
import TraceRecorder.Proofs.Pool.Acquisition
import TraceRecorder.Proofs.Recorder.Lanes

namespace TraceRecorder

open Fallible (Ends Keeps)

/-! ## 1. What is asked for -/

namespace RecorderOptions

variable (o : RecorderOptions) (kind : BufferKind) (needed : Nat)

theorem le_renewalRequest : needed ≤ o.renewalRequest kind needed := Nat.le_max_left _ _

/-- **Growth stops at what the pool allows.** -/
theorem renewalRequest_le :
    o.renewalRequest kind needed ≤ max needed (o.space kind).maxBufferSize :=
  Nat.max_le.2 ⟨Nat.le_max_left _ _, Nat.le_trans (Nat.min_le_right _ _) (Nat.le_max_right _ _)⟩

end RecorderOptions

/-- **What is asked for beyond what is needed is never the reason for a refusal.** -/
theorem Space.exhausted_renewalRequest_iff {s : Space} {o : RecorderOptions} {kind : BufferKind}
    (h : s.options = o.space kind) (needed : Nat) :
    s.Exhausted (o.renewalRequest kind needed) ↔ s.Exhausted needed := by
  have hleast := o.le_renewalRequest kind needed
  have hmost := o.renewalRequest_le kind needed
  unfold Space.Exhausted
  rw [h]
  refine or_congr ?_ Iff.rfl
  omega

namespace Recorder

variable {r r₁ r' : Recorder} {out : List Buffer} {b : Buffer} {e : Epoch} {kind other : BufferKind}

/-! ## 2. Other pools, and the counter of renewals -/

/-- How many buffers were exchanged for larger ones. -/
def renewals (r : Recorder) : Nat := r.stats.renewals

theorem keeps_space_onSpace {α : Type} (h : other ≠ kind) (x : SpaceAction α) :
    Keeps (fun r : Recorder => r.space other) (onSpace kind x) :=
  fun r => space_setSpace_of_ne r _ h

theorem keeps_space_tally (other : BufferKind) (f : Stats → Stats) :
    Keeps (fun r : Recorder => r.space other) (tally f) :=
  .update fun r => space_count r f other

theorem keeps_space_lease (h : other ≠ kind) (size : Nat) (e : Epoch) (thread : ThreadId) :
    Keeps (fun r : Recorder => r.space other) (Recorder.lease kind size e thread) :=
  keeps_lease_of (fun _ => keeps_space_onSpace h _) fun _ => keeps_space_tally other _

theorem keeps_space_handOff (h : other ≠ b.kind) :
    Keeps (fun r : Recorder => r.space other) (Recorder.handOff b) := by
  unfold Recorder.handOff
  split
  · exact (keeps_space_onSpace h _).bind fun _ => keeps_space_tally _ _
  · exact keeps_space_onSpace h _

theorem keeps_renewals_onSpace {α : Type} (kind : BufferKind) (x : SpaceAction α) :
    Keeps renewals (onSpace kind x) :=
  fun r => congrArg Stats.renewals (stats_setSpace r kind _)

theorem keeps_renewals_lease (kind : BufferKind) (size : Nat) (e : Epoch) (thread : ThreadId) :
    Keeps renewals (Recorder.lease kind size e thread) := by
  refine keeps_lease_of (fun _ => keeps_renewals_onSpace kind _) fun how => ?_
  rcases how with _ | _ | _ <;> exact .update fun _ => rfl

theorem keeps_renewals_handOff (b : Buffer) : Keeps renewals (Recorder.handOff b) := by
  unfold Recorder.handOff
  split
  · exact (keeps_renewals_onSpace _ _).bind fun _ => .update fun _ => rfl
  · exact keeps_renewals_onSpace _ _

/-! ## 3. Leases -/

/-- **A pool is starved**: none of its free buffers is large enough, and there is no memory for a
new one. -/
def Starved (r : Recorder) (kind : BufferKind) (size : Nat) (m : MemoryFault) : Prop :=
  (∀ x ∈ (r.space kind).free.toList, x.capacity < size) ∧
    Memory.refusal? r.host.memory.grants (max size (r.options.space kind).bufferSize) = some m

/-- **A lease is refused as exhaustion exactly if the pool is exhausted**, and then changes nothing.
The only other fault is that the pool is starved. -/
theorem Sound.lease_exhausted (h : r.Sound out e) (kind : BufferKind) (size : Nat)
    (thread : ThreadId) :
    Ends (Recorder.lease kind size e thread) r fun answer r' =>
      (r.space kind).Exhausted size ∧
        (∃ fault, answer = .error fault ∧ fault.isExhausted = true) ∧ r' = r ∨
      ¬ (r.space kind).Exhausted size ∧
        (∀ fault, answer = .error fault → ∃ m, fault = .pool (.memory m)) ∧
        ∀ m, answer = .error (.pool (.memory m)) ↔ r.Starved kind size m := by
  by_cases hs : (r.space kind).Exhausted size
  · obtain ⟨fault, hrun, hkind⟩ := hs.refused r.host.memory.grants e (ownerFor kind thread)
    have hr : Fallible.runOn (Recorder.lease kind size e thread) r =
        (.error (.pool fault), r.setSpace kind (r.space kind)) := by
      simp [Recorder.lease, onSpace, hrun]
    refine Ends.of_run hr (.inl ⟨hs, ⟨_, rfl, beq_iff_eq.2 hkind⟩, ?_⟩)
    cases kind <;> rfl
  · have hfault (fault : PoolFault) := Space.error_iff_of_not_exhausted (h.pool kind).accounts hs
      r.host.memory.grants e (ownerFor kind thread) fault
    rw [h.options] at hfault
    rcases hrun : Fallible.runOn (Space.acquire r.host.memory.grants size e (ownerFor kind thread))
      (r.space kind) with ⟨fault | ⟨b, how⟩, s⟩
    · have hr : Fallible.runOn (Recorder.lease kind size e thread) r =
          (.error (.pool fault), r.setSpace kind s) := by
        simp [Recorder.lease, onSpace, hrun]
      obtain ⟨m, rfl, hsmall, hm⟩ := (hfault fault).1 (congrArg Prod.fst hrun)
      refine Ends.of_run hr (.inr ⟨hs, ?_, fun m' => ⟨?_, fun hm' => ?_⟩⟩)
      · rintro _ ⟨⟩
        exact ⟨m, rfl⟩
      · rintro ⟨⟩
        exact ⟨hsmall, hm⟩
      · cases hm.symm.trans hm'.2
        rfl
    · have hr : Fallible.runOn (Recorder.lease kind size e thread) r =
          (.ok b, (r.setSpace kind s).count (countLease how)) := by
        simp [Recorder.lease, onSpace, hrun, tally]
      refine Ends.of_run hr (.inr ⟨hs, ?_, fun m => ⟨?_, fun hm => ?_⟩⟩)
      · rintro _ ⟨⟩
      · rintro ⟨⟩
      · cases (congrArg Prod.fst hrun).symm.trans ((hfault _).2 ⟨m, rfl, hm⟩)

/-! ## 4. Where the old buffer goes -/

/-- **A buffer whose lease has ended is in its pool**, `out` being those that are leased then:
behind all full buffers with its committed bytes, or free or gone if it has none.  No other full or
bound buffer is different, nor is any other pool. -/
structure Stowed (r : Recorder) (b : Buffer) (r' : Recorder) (out : List Buffer) : Prop where
  full : (r'.space b.kind).full = if b.isEmpty then (r.space b.kind).full
    else b.rewind.retire :: (r.space b.kind).full
  home : b.isEmpty = true → b.husk ∈ (r'.space b.kind).free.toList ∨
    ∀ x ∈ (r'.space b.kind).buffers (ofKind b.kind out), x.id ≠ b.id
  bindings : (r'.space b.kind).bindings = (r.space b.kind).bindings
  others : ∀ other, other ≠ b.kind → r'.space other = r.space other

/-- **A buffer is lost**: its slot stays leased, but no pool and no writer has it.  Drains see what
they saw before. -/
structure Stranded (r : Recorder) (b : Buffer) (r' : Recorder) (out : List Buffer) : Prop where
  slot : (r'.space b.kind).arena.state? b.id = some .leased
  alone : ∀ x ∈ (r'.space b.kind).buffers (ofKind b.kind out), x.id ≠ b.id
  visible : r'.visible = r.visible

/-- **A lease that ends the thread** was asked of a starved pool.  What the thread held is lost. -/
theorem Sound.stranded_of_lease (h : r.Sound (b :: out) b.epoch) {size : Nat} {thread : ThreadId}
    {fault : Fault} (hf : fault.endsThread = true)
    (hrun : Fallible.runOn (Recorder.lease b.kind size b.epoch thread) r = (.error fault, r')) :
    ¬ (r.space b.kind).Exhausted size ∧
      ∃ m, fault = .pool (.memory m) ∧ r.Starved b.kind size m ∧ r.Stranded b r' out := by
  have hlost := (h.lease b.kind size thread).run_eq hrun
  have hwhy := (h.lease_exhausted b.kind size thread).run_eq hrun
  have hvisible := ((keeps_visible_lease _ _ _ _).ends r).run_eq hrun
  obtain ⟨hexhausted, -⟩ | ⟨-, hwastes⟩ := hlost
  · rw [Fault.not_isExhausted_of_endsThread hf] at hexhausted
    cases hexhausted
  obtain ⟨-, ⟨_, ⟨⟩, hexhausted⟩, -⟩ | ⟨hpool, hmemory, hstarved⟩ := hwhy
  · rw [Fault.not_isExhausted_of_endsThread hf] at hexhausted
    cases hexhausted
  obtain ⟨m, rfl⟩ := hmemory _ rfl
  have hout : ofKind b.kind (b :: out) = b :: ofKind b.kind out :=
    List.filter_cons_of_pos (beq_self_eq_true _)
  rw [hout] at hwastes
  exact ⟨hpool, m, rfl, (hstarved m).1 rfl, hwastes.slot, hwastes.id_ne, hvisible⟩

namespace Stowed

theorem of_rewind (h : r.Stowed b.rewind r' out) : r.Stowed b r' out :=
  ⟨h.full, h.home, h.bindings, h.others⟩

theorem after (h : r₁.Stowed b r' out)
    (hvisible : r₁.visible = r.visible)
    (hothers : ∀ other, other ≠ b.kind → r₁.space other = r.space other) : r.Stowed b r' out where
  full := by
    have hfull : (r₁.space b.kind).full = (r.space b.kind).full :=
      (congrArg Space.full (congrFun hvisible b.kind) :)
    rw [h.full, hfull]
  home := h.home
  bindings := h.bindings.trans (congrArg Space.bindings (congrFun hvisible b.kind) :)
  others other ho := (h.others other ho).trans (hothers other ho)

theorem count (h : r.Stowed b r' out) (f : Stats → Stats) : r.Stowed b (r'.count f) out where
  full := by
    rw [space_count]
    exact h.full
  home := by
    rw [space_count]
    exact h.home
  bindings := by
    rw [space_count]
    exact h.bindings
  others other ho := by
    rw [space_count]
    exact h.others other ho

/-- **Another buffer that holds nothing comes back to the pool** afterwards. -/
theorem regains {x : Buffer} {kept gone : List Buffer} (h : r.Stowed b r₁ (x :: out))
    (hx : x.kind = b.kind) (hback : r₁.Regains r' [x] kept gone)
    (hothers : ∀ other, other ≠ b.kind → r'.space other = r₁.space other) :
    r.Stowed b r' out where
  full := (congrArg Space.full (hback.visible b.kind) :).trans h.full
  home := by
    intro hb
    refine (h.home hb).imp (fun hfree => ?_) fun hgone y hy => ?_
    · rw [hback.free]
      exact List.mem_append_left _ hfree
    · have hbound := Space.Lending.boundBuffers_eq (hback.visible b.kind)
      have hfull : (r'.space b.kind).full = (r₁.space b.kind).full :=
        (congrArg Space.full (hback.visible b.kind) :)
      have hout : ofKind b.kind out ⊆ ofKind b.kind (x :: out) :=
        ((List.sublist_cons_self x out).filter _).subset
      rcases Space.mem_buffers.1 hy with hy | hy | hy | hy
      · rw [hback.free, List.mem_append] at hy
        rcases hy with hy | hy
        · exact hgone y (Space.mem_buffers.2 (.inl hy))
        · -- It has the id of the buffer that came back, which was out before.
          obtain ⟨z, hz, rfl⟩ := List.mem_map.1 hy
          have hzx : z = x := List.mem_singleton.1
            (hback.all.mem_iff.1 (List.mem_append_left _ (List.mem_filter.1 hz).1))
          subst hzx
          refine hgone z (Space.mem_buffers.2 (.inr (.inr (.inr ?_))))
          exact List.mem_filter.2 ⟨List.mem_cons_self, beq_iff_eq.2 hx⟩
      · rw [hfull] at hy
        exact hgone y (Space.mem_buffers.2 (.inr (.inl hy)))
      · rw [hbound] at hy
        exact hgone y (Space.mem_buffers.2 (.inr (.inr (.inl hy))))
      · exact hgone y (Space.mem_buffers.2 (.inr (.inr (.inr (hout hy)))))
  bindings := (congrArg Space.bindings (hback.visible b.kind) :).trans h.bindings
  others other ho := (hothers other ho).trans (h.others other ho)

end Stowed

theorem Sound.handOff_empty (h : r.Sound (b :: out) e) (hb : b.isEmpty = true) :
    Ends (Recorder.handOff b) r fun _ r' => ∃ kept gone, r.Regains r' [b] kept gone := by
  unfold Recorder.handOff
  rw [if_pos hb]
  refine (Sound.reclaim b.kind [b] h.husk (List.forall_mem_singleton.2 rfl)).mono ?_
  rintro _ r' ⟨-, -, -, -, kept, gone, hback, -⟩
  exact ⟨kept, gone, hback⟩

/-- **When a lease ends the buffer is in its pool.** -/
theorem Sound.stowed (h : r.Sound (b :: out) e) :
    Ends (Recorder.handOff b) r fun _ r' => r.Stowed b r' out := by
  have hothers : Ends (Recorder.handOff b) r fun _ r' =>
      ∀ other, other ≠ b.kind → r'.space other = r.space other :=
    fun other ho => keeps_space_handOff ho r
  by_cases hb : b.isEmpty = true
  · refine ((h.handOff_empty hb).and hothers).mono ?_
    rintro _ r' ⟨⟨kept, gone, hback⟩, hothers⟩
    have hvisible := hback.visible b.kind
    refine ⟨?_, fun _ => ?_, (congrArg Space.bindings hvisible :), hothers⟩
    · rw [if_pos hb]
      exact (congrArg Space.full hvisible :)
    · have hfree := hback.free b.kind
      rcases List.perm_singleton.1 hback.all |> List.append_eq_singleton_iff.1 with
        ⟨rfl, rfl⟩ | ⟨rfl, rfl⟩
      · -- It was given up, and no other buffer had its id.
        refine .inr fun x hx => h.pool_cons.id_ne x ?_
        have hbound := Space.Lending.boundBuffers_eq hvisible
        have hfull : (r'.space b.kind).full = (r.space b.kind).full :=
          (congrArg Space.full hvisible :)
        rw [Space.mem_buffers, hfree, hfull, hbound] at hx
        rw [Space.mem_buffers]
        simpa [ofKind] using hx
      · refine .inl ?_
        rw [hfree, ofKind_of_all (List.forall_mem_singleton.2 rfl)]
        exact List.mem_append_right _ List.mem_cons_self
  · have hfull : Ends (Recorder.handOff b) r fun _ r' => ∃ a, r'.space b.kind =
        { r.space b.kind with arena := a, full := b.rewind.retire :: (r.space b.kind).full } := by
      have hb : b.isEmpty = false := by simpa using hb
      obtain ⟨a, hrun, -⟩ := h.pool_cons.registerFull hb
      unfold Recorder.handOff
      rw [if_neg (by simp [hb])]
      refine Ends.of_run (a := .ok ())
        (by simp only [registerFull, onSpace, Fallible.runOn_zoom, hrun]; rfl) ⟨a, ?_⟩
      rw [space_setSpace_self]
    refine (hfull.and hothers).mono ?_
    rintro _ r' ⟨⟨a, hspace⟩, hothers⟩
    refine ⟨?_, fun hempty => absurd hempty hb, ?_, hothers⟩
    · rw [if_neg hb, hspace]
    · rw [hspace]

end Recorder

/-! ## 5. Renewals -/

/-- **A buffer takes over from another one**: its epoch, its kind and its pending bytes. -/
structure Buffer.Succeeds (b old : Buffer) (o : SpaceOptions) : Prop where
  epoch : b.epoch = old.epoch
  kind : b.kind = old.kind
  committed : b.committed = .empty
  pending : b.pending = old.pending
  capacity : b.capacity ≤ o.maxBufferSize

namespace Recorder

variable {r r' : Recorder} {out : List Buffer} {old fresh : Buffer} {size : Nat}

/-- **The ways in which a renewal ends.** -/
inductive Renewed (r : Recorder) (old : Buffer) (size : Nat) (out : List Buffer) :
    Except Fault Buffer → Recorder → Prop
  | exhausted {fault : Fault} {r' : Recorder}
      (hpool : (r.space old.kind).Exhausted (old.needed size)) (hf : fault.isExhausted = true)
      (hold : r.Stowed old r' out) (hcount : r'.renewals = r.renewals) :
      Renewed r old size out (.error fault) r'
  | starved {m : MemoryFault} {r' : Recorder}
      (hpool : ¬ (r.space old.kind).Exhausted (old.needed size))
      (hm : r.Starved old.kind (r.options.renewalRequest old.kind (old.needed size)) m)
      (hold : r.Stranded old r' out) (hcount : r'.renewals = r.renewals) :
      Renewed r old size out (.error (.pool (.memory m))) r'
  | overflowed {r' : Recorder} (hpool : ¬ (r.space old.kind).Exhausted (old.needed size))
      (hfed : ∀ m, ¬ r.Starved old.kind (r.options.renewalRequest old.kind (old.needed size)) m)
      (hword : UInt64.size ≤ size + old.pending.length)
      (hold : r.Stowed old r' out) (hcount : r'.renewals = r.renewals) :
      Renewed r old size out (.error (.recorder .renewalTooSmall)) r'
  | grown {b : Buffer} {r' : Recorder}
      (hpool : ¬ (r.space old.kind).Exhausted (old.needed size))
      (hfed : ∀ m, ¬ r.Starved old.kind (r.options.renewalRequest old.kind (old.needed size)) m)
      (hnew : b.Succeeds old (r.options.space old.kind))
      (hroom : size + old.pending.length < UInt64.size → size ≤ b.free)
      (hold : r.Stowed old r' (b :: out)) (hcount : r'.renewals = r.renewals + 1) :
      Renewed r old size out (.ok b) r'

namespace Renewed

variable {answer : Except Fault Buffer} {fault : Fault}

/-- **The pool alone decides on exhaustion.** -/
theorem exhausted_iff (h : r.Renewed old size out answer r') :
    (∃ fault, answer = .error fault ∧ fault.isExhausted = true) ↔
      (r.space old.kind).Exhausted (old.needed size) := by
  cases h with
  | exhausted hpool hf => exact ⟨fun _ => hpool, fun _ => ⟨_, rfl, hf⟩⟩
  | @starved m _ hpool =>
    refine ⟨?_, fun hs => absurd hs hpool⟩
    rintro ⟨_, ⟨⟩, hf⟩
    cases m <;> cases hf
  | overflowed hpool =>
    refine ⟨?_, fun hs => absurd hs hpool⟩
    rintro ⟨_, ⟨⟩, hf⟩
    cases hf
  | grown hpool =>
    refine ⟨?_, fun hs => absurd hs hpool⟩
    rintro ⟨_, ⟨⟩, -⟩

/-- **The memory alone decides on what else is refused**, but for a need that is no word. -/
theorem memory_iff (h : r.Renewed old size out answer r') (m : MemoryFault) :
    answer = .error (.pool (.memory m)) ↔ ¬ (r.space old.kind).Exhausted (old.needed size) ∧
      r.Starved old.kind (r.options.renewalRequest old.kind (old.needed size)) m := by
  cases h with
  | @exhausted fault _ hpool hf =>
    refine ⟨?_, fun hs => absurd hpool hs.1⟩
    rintro ⟨⟩
    cases m <;> cases hf
  | starved hpool hm =>
    refine ⟨?_, fun hs => ?_⟩
    · rintro ⟨⟩
      exact ⟨hpool, hm⟩
    · cases hm.2.symm.trans hs.2.2
      rfl
  | overflowed _ hfed => exact ⟨nofun, fun hs => absurd hs.2 (hfed m)⟩
  | grown _ hfed => exact ⟨nofun, fun hs => absurd hs.2 (hfed m)⟩

/-- **Where the need is a word**, it is met unless the pool is exhausted or starved. -/
theorem ok_iff (h : r.Renewed old size out answer r')
    (hword : size + old.pending.length < UInt64.size) :
    (∃ fresh, answer = .ok fresh) ↔ ¬ (r.space old.kind).Exhausted (old.needed size) ∧
      ∀ m, ¬ r.Starved old.kind (r.options.renewalRequest old.kind (old.needed size)) m := by
  cases h with
  | exhausted hpool =>
    refine ⟨?_, fun hs => absurd hpool hs.1⟩
    rintro ⟨_, ⟨⟩⟩
  | starved _ hm =>
    refine ⟨?_, fun hs => absurd hm (hs.2 _)⟩
    rintro ⟨_, ⟨⟩⟩
  | overflowed _ _ hbeyond => exact absurd hword (Nat.not_lt.2 hbeyond)
  | grown hpool hfed => exact ⟨fun _ => ⟨hpool, hfed⟩, fun _ => ⟨_, rfl⟩⟩

/-- **There are three reasons for a fault.** -/
theorem of_error (h : r.Renewed old size out (.error fault) r') :
    fault.isExhausted = true ∨ (∃ m, fault = .pool (.memory m)) ∨
      (fault = .recorder .renewalTooSmall ∧ UInt64.size ≤ size + old.pending.length) := by
  cases h with
  | exhausted _ hf => exact .inl hf
  | starved => exact .inr (.inl ⟨_, rfl⟩)
  | overflowed _ _ hword => exact .inr (.inr ⟨rfl, hword⟩)

/-- **Just the pending bytes are lost by a fault**, unless it ends the thread. -/
theorem stowed_of_error (h : r.Renewed old size out (.error fault) r')
    (hf : fault.endsThread = false) : r.Stowed old r' out := by
  cases h with
  | exhausted _ _ hold => exact hold
  | starved => cases hf
  | overflowed _ _ _ hold => exact hold

/-- **All bytes are lost by a fault that ends the thread.** -/
theorem stranded_of_error (h : r.Renewed old size out (.error fault) r')
    (hf : fault.endsThread = true) : r.Stranded old r' out := by
  cases h with
  | exhausted _ hexhausted =>
    rw [Fault.not_isExhausted_of_endsThread hf] at hexhausted
    cases hexhausted
  | starved _ _ hold => exact hold
  | overflowed => cases hf

theorem renewals_of_error (h : r.Renewed old size out (.error fault) r') :
    r'.renewals = r.renewals := by
  cases h with
  | exhausted _ _ _ hcount | starved _ _ _ hcount | overflowed _ _ _ _ hcount => exact hcount

theorem of_ok (h : r.Renewed old size out (.ok fresh) r') :
    fresh.Succeeds old (r.options.space old.kind) ∧
      (size + old.pending.length < UInt64.size → size ≤ fresh.free) ∧
      r.Stowed old r' (fresh :: out) ∧ r'.renewals = r.renewals + 1 := by
  cases h with
  | grown _ _ hnew hroom hold hcount => exact ⟨hnew, hroom, hold, hcount⟩

end Renewed

/-- **A pool is never starved where there is memory for whatever it allows.** -/
theorem Sound.not_starved (h : r.Sound (old :: out) e) (size : Nat)
    (hpool : ¬ (r.space old.kind).Exhausted (old.needed size))
    (hmemory : ∀ n ≤ (r.options.space old.kind).maxBufferSize,
      Memory.refusal? r.host.memory.grants n = none) (m : MemoryFault) :
    ¬ r.Starved old.kind (r.options.renewalRequest old.kind (old.needed size)) m := by
  have hrequest := r.options.renewalRequest_le old.kind (old.needed size)
  have hsizes := (h.pool old.kind).sizes
  have hfits : old.needed size ≤ (r.space old.kind).options.maxBufferSize :=
    Nat.le_of_not_lt fun hlt => hpool (.inl hlt)
  rw [h.options] at hsizes hfits
  rintro ⟨-, hm⟩
  rw [hmemory _ (by omega)] at hm
  cases hm

/-- **A renewal ends in one of these ways.** -/
theorem Sound.renewed (h : r.Sound (old :: out) old.epoch) (thread : ThreadId) (size : Nat) :
    Ends (Recorder.renew old thread size old.kind) r (r.Renewed old size out) := by
  have hneeded := Space.exhausted_renewalRequest_iff (h.options old.kind) (old.needed size)
  have hlease := (h.lease old.kind (r.options.renewalRequest old.kind (old.needed size)) thread).and
    ((h.lease_exhausted old.kind _ thread).and
      (((keeps_visible_lease _ _ _ _).ends r).and ((keeps_renewals_lease _ _ _ _).ends r)))
  rw [hneeded] at hlease
  -- The lease concerns no other pool.
  have hothers {answer : Except Fault Buffer} {r₁ : Recorder}
      (hrun : Fallible.runOn (Recorder.lease old.kind
        (r.options.renewalRequest old.kind (old.needed size)) old.epoch thread) r = (answer, r₁)) :
      ∀ other, other ≠ old.kind → r₁.space other = r.space other :=
    fun other ho => ((keeps_space_lease ho _ old.epoch thread).ends r).run_eq hrun
  refine (h.renews thread size old.kind).mono ?_
  intro answer r' hrenews
  cases hrenews with
  | refused hrun hf hold =>
    obtain ⟨-, ⟨hpool, -⟩ | ⟨-, hmemory, -⟩, -⟩ := hlease.run_eq hrun
    · -- What was committed comes back with the old buffer.
      exact .exhausted hpool hf (h.rewind.sound.stowed.run_eq hold).of_rewind
        (((keeps_renewals_handOff _).ends _).run_eq hold)
    · obtain ⟨m, rfl⟩ := hmemory _ rfl
      cases m <;> cases hf
  | ended hrun hf =>
    obtain ⟨hpool, m, rfl, hstarved, hstranded⟩ := h.stranded_of_lease hf hrun
    rw [hneeded] at hpool
    exact .starved hpool hstarved hstranded (((keeps_renewals_lease _ _ _ _).ends r).run_eq hrun)
  | @small fresh r₁ r₂ _ hrun hcarry hold hback =>
    obtain ⟨⟨ht, hk, hb⟩, ⟨-, ⟨_, ⟨⟩, -⟩, -⟩ | ⟨hpool, -, hstarved⟩, hvisible, hcount⟩ :=
      hlease.run_eq hrun
    have hs₁ := ht.sound.perm (List.Perm.swap _ _ _)
    obtain ⟨-, ht₂⟩ := hs₁.handOff.run_eq hold
    have hstowed := (hs₁.stowed.run_eq hold).after hvisible (hothers hrun)
    have hempty : fresh.isEmpty = true := by
      rw [Buffer.isEmpty_iff, hb.clean.committed]
      rfl
    obtain ⟨kept, gone, hregains⟩ := (ht₂.sound.handOff_empty hempty).run_eq hback
    have hothers₂ : ∀ other, other ≠ old.kind → r'.space other = r₂.space other :=
      fun other ho => ((keeps_space_handOff (hk ▸ ho)).ends r₂).run_eq hback
    refine .overflowed hpool (fun m hm => nomatch (hstarved m).2 hm) ?_
      (hstowed.regains hk hregains hothers₂) ?_
    · by_contra hlt
      have hsmall := Buffer.lt_of_carry?_eq_none hb.clean hcarry
      have hroom := hb.room_of_needed (Nat.lt_of_not_le hlt)
      omega
    · have hcount₂ := ((keeps_renewals_handOff _).ends _).run_eq hold
      exact (((keeps_renewals_handOff _).ends _).run_eq hback).trans (hcount₂.trans hcount)
  | @grown fresh r₁ r₂ hrun hcarry hold =>
    obtain ⟨⟨ht, hk, hb⟩, ⟨-, ⟨_, ⟨⟩, -⟩, -⟩ | ⟨hpool, -, hstarved⟩, hvisible, hcount⟩ :=
      hlease.run_eq hrun
    obtain ⟨-, hmoved⟩ := ht.sound.carry hb.clean hcarry
    have hstowed := (hmoved.sound.stowed.run_eq hold).of_rewind.after hvisible (hothers hrun)
    have hmost : fresh.capacity ≤ (r.options.space old.kind).maxBufferSize := by
      have hmost := ht.sound.fits.most
      rwa [hk, options_eq_of_surroundings_eq ht.surroundings] at hmost
    refine .grown hpool (fun m hm => nomatch (hstarved m).2 hm)
      ⟨hb.epoch, hk, hb.clean.committed, rfl, hmost⟩ ?_ (hstowed.count _) ?_
    · intro hword
      have hroom := hb.room_of_needed hword
      rw [hb.clean.free_of_pending]
      omega
    · have hcount₂ := ((keeps_renewals_handOff _).ends _).run_eq hold
      exact congrArg (· + 1) (hcount₂.trans hcount)

end Recorder

end TraceRecorder
