/-
# When a lease is met, and with which buffer

A pool whose users give back only what they were lent is `Trusted`: what they hold is `out`, and a
buffer that is out may be written into, bound to a thread, made full, or come back.

A request to such a pool is refused exactly if the pool is `Exhausted`: the size is beyond what the
pool allows, or no buffer is free and there may be no more of them.  A refusal changes nothing.
Otherwise a buffer is `Lent`:

* the first free one that is large enough (`Lending.reuse`);
* where none is, a new one (`Lending.allocate`), for which the smallest free one has made room if
  there may be no more of them, and in whose slot it then stands (`Arena.insert_of_remove`).

`Trusted.acquisition` puts this together.  The one way out is that there is no memory for a new
buffer (`Space.error_iff_of_not_exhausted`): then its slot is taken all the same.
-/
import TraceRecorder.Proofs.Pool.Misuse

namespace TraceRecorder

/-! ## 1. The first that is large enough, and the smallest -/

namespace Shelf

variable {s : Shelf} {w : Wish} {b : Buffer} {before after : List Buffer}

/-- **The first buffer that meets a wish is taken**, wherever it stands. -/
theorem takeFirst?_of_toList (h : s.toList = before ++ b :: after)
    (hb : w.meets b = true) (hbefore : ∀ x ∈ before, w.meets x = false) :
    ∃ t, s.takeFirst? w = some (b, t) ∧ t.toList = before ++ closeGap after := by
  cases ht : s.takeFirst? w with
  | none =>
    have hno := takeFirst?_eq_none_iff.1 ht b (by simp [h])
    rw [hb] at hno
    cases hno
  | some found =>
    obtain ⟨b', t⟩ := found
    obtain ⟨before', after', hs, hbefore', hb', hrest⟩ := takeFirst?_eq_some ht
    -- What stands in front of the first one is what does not meet the wish from the start on.
    have hfront (front behind : List Buffer) (x : Buffer) (hx : w.meets x = true)
        (hfront : ∀ y ∈ front, w.meets y = false) :
        (front ++ x :: behind).takeWhile (fun y => !w.meets y) = front := by
      rw [List.takeWhile_append_of_pos fun y hy => by rw [hfront y hy]; rfl,
        List.takeWhile_cons_of_neg (by simp [hx]), List.append_nil]
    have hsame : before ++ b :: after = before' ++ b' :: after' := h.symm.trans hs
    have hbefores : before = before' := by
      rw [← hfront before after b hb hbefore, hsame, hfront before' after' b' hb' hbefore']
    subst hbefores
    obtain ⟨rfl, rfl⟩ := List.cons.inj (List.append_cancel_left hsame)
    exact ⟨t, rfl, hrest⟩

end Shelf

namespace Space

variable {o : SpaceOptions} {kind : BufferKind} {s s₁ : Space} {grants : Nat → Bool} {size : Nat}

/-! ## 2. Refusals -/

/-- **The pool has nothing for a request**: it allows no buffer of the size, or none is free and
there may be no more of them. -/
def Exhausted (s : Space) (size : Nat) : Prop :=
  s.options.maxBufferSize < size ∨ s.free.toList = [] ∧ s.options.limit ≤ s.arena.live

/-- **A request to an exhausted pool is refused and changes nothing.** -/
theorem Exhausted.refused (h : s.Exhausted size) (grants : Nat → Bool) (epoch : Epoch)
    (owner : Owner) :
    ∃ fault, Fallible.runOn (acquire grants size epoch owner) s = (.error fault, s) ∧
      fault.report.kind = .exhausted := by
  by_cases hmax : s.options.maxBufferSize < size
  · exact ⟨.oversized s.kind size, by simp [acquire, hmax], rfl⟩
  · obtain ⟨hfree, hlimit⟩ := h.resolve_left hmax
    have ht : s.free.takeFirst? (.atLeast size) = none :=
      Shelf.takeFirst?_eq_none_iff.2 (by simp [hfree])
    have hs : s.free.takeSmallest? = none := Shelf.takeSmallest?_eq_none_iff.2 hfree
    exact ⟨.limitReached s.kind s.options.limit,
      by simp [acquire, hmax, ht, makeRoom, Nat.not_lt.2 hlimit, hs], rfl⟩

/-- **Room is made for whom the pool has something**, by giving up the smallest free buffer if there
may be no more of them. -/
theorem makeRoom_of_not_exhausted {held : List Holding}
    (h : s.arena.Accounts (s.free.toList.map (fun b => (b.id, .free)) ++ held))
    (hs : ¬ s.Exhausted size) :
    ∃ s₁, Fallible.runOn Space.makeRoom s = (.ok (decide (s.options.limit ≤ s.arena.live)), s₁) ∧
      s₁.options = s.options ∧
      (s.arena.live < s.options.limit → s₁ = s) ∧
      (s.options.limit ≤ s.arena.live → s₁.arena.live + 1 = s.arena.live ∧ ∃ victim,
        s.free.takeSmallest? = some (victim, s₁.free) ∧
        s.arena.remove victim.id .free = .ok s₁.arena) := by
  rcases runOn_makeRoom h with ⟨hrun, hl⟩ | ⟨hl, victim, rest, a, hrun, ht, ha, -, hlive⟩ |
    ⟨-, hnone⟩
  · exact ⟨s, by rw [hrun, decide_eq_false (Nat.not_le.2 hl)], rfl, fun _ => rfl,
      fun hle => absurd hl (Nat.not_lt.2 hle)⟩
  · rw [decide_eq_true hl]
    exact ⟨_, hrun, rfl, fun hlt => absurd hl (Nat.not_le.2 hlt),
      fun _ => ⟨hlive, victim, ht, ha⟩⟩
  · exact absurd (.inr hnone) hs

/-- **Only for want of memory** is a request not met for which the pool has something: no free
buffer is large enough, and there is no memory for a new one. -/
theorem error_iff_of_not_exhausted {held : List Holding}
    (h : s.arena.Accounts (s.free.toList.map (fun b => (b.id, .free)) ++ held))
    (hs : ¬ s.Exhausted size) (grants : Nat → Bool) (epoch : Epoch) (owner : Owner)
    (fault : PoolFault) :
    (Fallible.runOn (Space.acquire grants size epoch owner) s).1 = .error fault ↔
      ∃ m, fault = .memory m ∧ (∀ x ∈ s.free.toList, x.capacity < size) ∧
        Memory.refusal? grants (max size s.options.bufferSize) = some m := by
  have hsize : size ≤ s.options.maxBufferSize := Nat.le_of_not_lt fun hlt => hs (.inl hlt)
  have hnone : s.free.takeFirst? (.atLeast size) = none ↔
      ∀ x ∈ s.free.toList, x.capacity < size := by
    simp [Shelf.takeFirst?_eq_none_iff, Wish.meets]
  cases ht : s.free.takeFirst? (.atLeast size) with
  | some found =>
    obtain ⟨a, hrun, -⟩ := runOn_acquire_free grants h hsize ht epoch owner
    rw [hrun]
    constructor
    · rintro ⟨⟩
    · rintro ⟨_, _, hsmall, _⟩
      rw [hnone.2 hsmall] at ht
      cases ht
  | none =>
    obtain ⟨s₁, hroom, ho, -⟩ := makeRoom_of_not_exhausted h hs
    have hsmall := hnone.1 ht
    rw [runOn_acquire_new grants hsize ht hroom, ho]
    cases hm : Memory.refusal? grants (max size s.options.bufferSize) with
    | none =>
      constructor
      · rintro ⟨⟩
      · rintro ⟨_, _, _, ⟨⟩⟩
    | some m =>
      refine ⟨fun hfault => ⟨m, ?_, hsmall, rfl⟩, ?_⟩
      · cases hfault
        rfl
      · rintro ⟨_, rfl, -, hrefusal⟩
        cases hrefusal
        rfl

/-! ## 3. Leases -/

/-- **A buffer is lent**: it is as good as new and tagged as was asked for, its slot says that it is
leased, and nobody else holds its id.  What drains could see is as it was. -/
structure Lent (s : Space) (out : List Buffer) (size : Nat) (epoch : Epoch) (owner : Owner)
    (b : Buffer) (s' : Space) : Prop where
  fresh : b.Fresh size epoch owner
  slot : s'.arena.state? b.id = some .leased
  alone : ∀ x ∈ s'.buffers out, x.id ≠ b.id
  visible : s'.visible = s.visible

/-- **A slot is taken for a buffer that is not made**: it says that it is leased, and nobody holds
its id.  What drains could see is as it was. -/
structure Stranded (s : Space) (out : List Buffer) (id : BufferId) (s' : Space) : Prop where
  slot : s'.arena.state? id = some .leased
  alone : ∀ x ∈ s'.buffers out, x.id ≠ id
  visible : s'.visible = s.visible

/-- **The smallest free buffer is given up for a new one**: its id is stale, the last free buffer
closes its gap, and the new one has its slot. -/
structure GivesUp (s : Space) (victim : Buffer) (id : BufferId) (s' : Space) : Prop where
  smallest : ∃ before after, s.free.toList = before ++ victim :: after ∧
    (∀ x ∈ before, victim.capacity < x.capacity) ∧ (∀ x ∈ after, victim.capacity ≤ x.capacity) ∧
    s'.free.toList = before ++ Shelf.closeGap after
  stale : s'.arena.state? victim.id = none
  slot : id = ⟨victim.id.index, victim.id.generation + 1⟩

/-- **A new id is given out**: one more is live, unless there may be no more of them, and then the
smallest free buffer is given up instead. -/
structure TakesSlot (s : Space) (id : BufferId) (s' : Space) : Prop where
  spare : s.arena.live < s.options.limit →
    s'.free = s.free ∧ s'.arena.live = s.arena.live + 1
  full : s.options.limit ≤ s.arena.live →
    s'.arena.live = s.arena.live ∧ ∃ victim, s.GivesUp victim id s'

namespace Listed

variable {leased : List BufferId} {id : BufferId}

theorem alone (h : Listed o s (id :: leased)) :
    s.arena.state? id = some .leased ∧ (∀ b ∈ s.free.toList, b.id ≠ id) ∧
      (∀ b ∈ s.full, b.id ≠ id) ∧ id ∉ leased := by
  have hacc := h.accounts.perm (listings_cons s id leased)
  have hothers := hacc.shows.index_ne_of_mem_tail
  have hne : ∀ state other, (other, state) ∈ s.listings leased → other ≠ id := by
    rintro state other hmem rfl
    exact hothers _ hmem rfl
  refine ⟨hacc.state?_eq List.mem_cons_self, fun b hb => hne .free b.id ?_,
    fun b hb => hne .full b.id ?_, fun hmem => hne .leased id ?_ rfl⟩
  · exact List.mem_append_left _ (List.mem_map.2 ⟨b, hb, rfl⟩)
  · exact List.mem_append_right _ (List.mem_append_left _ (List.mem_map.2 ⟨b, hb, rfl⟩))
  · exact List.mem_append_right _ (List.mem_append_right _ (List.mem_map.2 ⟨id, hmem, rfl⟩))

/-- **Buffers that are leased all come back.** -/
theorem reclaimAll {buffers : List Buffer} (h : Listed o s (buffers.map Buffer.id ++ leased)) :
    ∃ n s', Fallible.runOn (Space.reclaim buffers) s = (.ok n, s') ∧ Listed o s' leased := by
  induction buffers generalizing s with
  | nil => exact ⟨0, s, rfl, h⟩
  | cons b rest ih =>
    obtain ⟨s₁, hone, -, -, h₁⟩ := h.reclaimOne
    obtain ⟨n, s', hrest, h'⟩ := ih h₁
    exact ⟨_, s', by rw [runOn_reclaim_cons hone, hrest]; rfl, h'⟩

end Listed

/-! ## 4. Pools in good hands -/

/-- **The states of a pool that is given back only what it lent**, each with the buffers that are
out.  Whoever holds a buffer may change it but for its id, and may bind it to a thread. -/
inductive Trusted (kind : BufferKind) (o : SpaceOptions) : Space → (out : List Buffer) → Prop
  | create : Trusted kind o (.create kind o) []
  | acquire {s s' : Space} {out : List Buffer} {b : Buffer} {how : Acquired}
      (h : Trusted kind o s out) (grants : Nat → Bool) (size : Nat) (epoch : Epoch)
      (owner : Owner)
      (hrun : Fallible.runOn (acquire grants size epoch owner) s = (.ok (b, how), s')) :
      Trusted kind o s' (b :: out)
  | refuse {s s' : Space} {out : List Buffer} {fault : PoolFault}
      (h : Trusted kind o s out) (grants : Nat → Bool) (size : Nat) (epoch : Epoch)
      (owner : Owner)
      (hrun : Fallible.runOn (acquire grants size epoch owner) s = (.error fault, s')) :
      Trusted kind o s' out
  | change {s : Space} {out out' : List Buffer} (h : Trusted kind o s out)
      (hids : (out.map Buffer.id).Perm (out'.map Buffer.id)) : Trusted kind o s out'
  | registerFull {s : Space} {b : Buffer} {out : List Buffer} (h : Trusted kind o s (b :: out)) :
      Trusted kind o (s.after (.registerFull b)) out
  | reclaim {s : Space} {buffers out : List Buffer} (h : Trusted kind o s (buffers ++ out)) :
      Trusted kind o (s.after (.reclaim buffers)) out
  | takeFull {s : Space} {out : List Buffer} (h : Trusted kind o s out) (epoch : Epoch) :
      Trusted kind o (s.after (.takeFull epoch))
        ((s.full.filter fun b => b.epoch == epoch).reverse ++ out)
  | takeAllFull {s : Space} {out : List Buffer} (h : Trusted kind o s out) :
      Trusted kind o (s.after .takeAllFull) (s.full.reverse ++ out)
  | bind {s : Space} {out : List Buffer} {kept : Option Buffer}
      (h : Trusted kind o s (kept.toList ++ out)) (thread : ThreadId) :
      Trusted kind o (s.bind thread kept) ((s.bound? thread).toList ++ out)
  | unbind {s : Space} {out : List Buffer} (h : Trusted kind o s out) (thread : ThreadId) :
      Trusted kind o (s.unbind thread) ((s.bound? thread).toList ++ out)
  | withoutBound {s : Space} {out : List Buffer} (h : Trusted kind o s out)
      (test : Buffer → Bool) :
      Trusted kind o (s.withoutBound test) (s.boundWhere test ++ out)

/-- **The slots account for what is bound and what is out**, and perhaps for ids that are `lost`,
since there was no memory for their buffers. -/
structure Lending (o : SpaceOptions) (s : Space) (out : List Buffer) (lost : List BufferId) :
    Prop where
  listed : Listed o s ((s.boundBuffers ++ out).map Buffer.id ++ lost)
  ordered : Dict.Ordered s.bindings

namespace Lending

variable {s' : Space} {out out' : List Buffer} {lost : List BufferId} {b : Buffer}

theorem boundBuffers_eq (h : s'.visible = s.visible) : s'.boundBuffers = s.boundBuffers := by
  have hbindings : s'.bindings = s.bindings := (congrArg Space.bindings h :)
  rw [boundBuffers, hbindings, boundBuffers]

theorem leased_cons (s : Space) (b : Buffer) (out : List Buffer) (lost : List BufferId) :
    (b.id :: ((s.boundBuffers ++ out).map Buffer.id ++ lost)).Perm
      ((s.boundBuffers ++ b :: out).map Buffer.id ++ lost) := by
  rw [← List.cons_append, ← List.map_cons]
  exact (List.perm_middle.symm.map _).append_right lost

/-- **One more buffer is out.** -/
theorem out_cons (h : Lending o s out lost) (hv : s'.visible = s.visible)
    (hs : Listed o s' (b.id :: ((s.boundBuffers ++ out).map Buffer.id ++ lost))) :
    Lending o s' (b :: out) lost where
  listed := by
    rw [boundBuffers_eq hv]
    exact hs.perm (leased_cons s b out lost)
  ordered := (congrArg Space.bindings hv :) ▸ h.ordered

/-- **What is bound is exchanged for what is out.** -/
theorem exchange (h : Lending o s out lost) {d : Dict ThreadId (Option Buffer)}
    (hp : (Space.boundBuffers { s with bindings := d } ++ out').Perm (s.boundBuffers ++ out))
    (hd : Dict.Ordered d) : Lending o { s with bindings := d } out' lost where
  listed := by
    have hperm := h.listed.perm ((hp.symm.map Buffer.id).append_right lost)
    exact ⟨hperm.options, hperm.accounts, hperm.live, hperm.free⟩
  ordered := hd

/-- A lease takes a buffer out, or changes nothing that is held. -/
theorem acquire (h : Lending o s out lost) (grants : Nat → Bool) (size : Nat) (epoch : Epoch)
    (owner : Owner) :
    (∃ b how s', Fallible.runOn (Space.acquire grants size epoch owner) s =
      (.ok (b, how), s') ∧ s'.visible = s.visible ∧ Lending o s' (b :: out) lost) ∨
    ∃ fault s' lost', Fallible.runOn (Space.acquire grants size epoch owner) s =
      (.error fault, s') ∧ Lending o s' out lost' := by
  have hvisible := keeps_acquire grants size epoch owner s
  rcases h.listed.acquire grants size epoch owner with ⟨⟨b, how⟩, s', hrun, hs⟩ | ⟨fault, hrun, -⟩ |
    ⟨m, s', id, hrun, hs⟩
  · rw [hrun] at hvisible
    exact .inl ⟨b, how, s', hrun, hvisible, h.out_cons hvisible hs⟩
  · exact .inr ⟨fault, s, lost, hrun, h⟩
  · rw [hrun] at hvisible
    refine .inr ⟨.memory m, s', id :: lost, hrun, ?_, (congrArg Space.bindings hvisible :) ▸
      h.ordered⟩
    rw [boundBuffers_eq hvisible]
    exact hs.perm List.perm_middle.symm

theorem takeFullWhere (h : Lending o s out lost) (test : Buffer → Bool) :
    Lending o (Fallible.runOn (Space.takeFullWhere test) s).2
      ((s.full.filter test).reverse ++ out) lost := by
  obtain ⟨s', hrun, -, -, hbindings, hs⟩ := h.listed.takeFullWhere test
  have hbound : s'.boundBuffers = s.boundBuffers := by
    rw [boundBuffers, hbindings, boundBuffers]
  rw [hrun]
  refine ⟨hs.perm ?_, hbindings ▸ h.ordered⟩
  rw [hbound, ← List.append_assoc, ← List.map_append]
  exact ((List.perm_append_comm_assoc _ _ _).map _).append_right lost

end Lending

/-- **In good hands no slot is forgotten.** -/
theorem Trusted.lending {out : List Buffer} (h : Trusted kind o s out) :
    ∃ lost, Lending o s out lost := by
  induction h with
  | create => exact ⟨[], .create kind o, .nil⟩
  | acquire _ grants size epoch owner hrun ih =>
    obtain ⟨lost, ih⟩ := ih
    rcases ih.acquire grants size epoch owner with ⟨b, how, s', hrun', -, h'⟩ | ⟨_, _, _, hrun', -⟩
    · rw [hrun] at hrun'
      cases hrun'
      exact ⟨lost, h'⟩
    · rw [hrun] at hrun'
      cases hrun'
  | refuse _ grants size epoch owner hrun ih =>
    obtain ⟨lost, ih⟩ := ih
    rcases ih.acquire grants size epoch owner with ⟨_, _, _, hrun', -⟩ |
      ⟨fault, s', lost', hrun', h'⟩
    · rw [hrun] at hrun'
      cases hrun'
    · rw [hrun] at hrun'
      cases hrun'
      exact ⟨lost', h'⟩
  | @change s out out' _ hids ih =>
    obtain ⟨lost, ih⟩ := ih
    refine ⟨lost, ih.listed.perm ?_, ih.ordered⟩
    rw [List.map_append, List.map_append]
    exact (hids.append_left _).append_right lost
  | @registerFull s b out _ ih =>
    obtain ⟨lost, ih⟩ := ih
    obtain ⟨a, hrun, h'⟩ := (ih.listed.perm (Lending.leased_cons s b out lost).symm).registerFull
    rw [after, hrun]
    exact ⟨lost, h', ih.ordered⟩
  | @reclaim s buffers out _ ih =>
    obtain ⟨lost, ih⟩ := ih
    have hvisible := keeps_reclaim buffers s
    have hp : ((s.boundBuffers ++ (buffers ++ out)).map Buffer.id ++ lost).Perm
        (buffers.map Buffer.id ++ ((s.boundBuffers ++ out).map Buffer.id ++ lost)) := by
      rw [← List.append_assoc (buffers.map Buffer.id), ← List.map_append]
      exact ((List.perm_append_comm_assoc _ _ _).map _).append_right lost
    obtain ⟨n, s', hrun, h'⟩ := (ih.listed.perm hp).reclaimAll
    rw [hrun] at hvisible
    rw [after, hrun]
    exact ⟨lost, by rw [Lending.boundBuffers_eq hvisible]; exact h',
      (congrArg Space.bindings hvisible :) ▸ ih.ordered⟩
  | takeFull _ epoch ih =>
    obtain ⟨lost, ih⟩ := ih
    exact ⟨lost, ih.takeFullWhere fun b => b.epoch == epoch⟩
  | @takeAllFull s out _ ih =>
    obtain ⟨lost, ih⟩ := ih
    have h' := ih.takeFullWhere fun _ => true
    rw [List.filter_eq_self.2 fun _ _ => rfl] at h'
    exact ⟨lost, h'⟩
  | @bind s out kept _ thread ih =>
    obtain ⟨lost, ih⟩ := ih
    refine ⟨lost, ih.exchange ?_ (ih.ordered.insert _ _)⟩
    have hp := (perm_bind ih.ordered thread kept).append_right out
    rw [List.append_assoc, List.append_assoc] at hp
    exact hp.trans (List.perm_append_comm_assoc _ _ _)
  | @unbind s out _ thread ih =>
    obtain ⟨lost, ih⟩ := ih
    refine ⟨lost, ih.exchange ?_ (ih.ordered.erase _)⟩
    have hp := (perm_unbind ih.ordered thread).append_right out
    rwa [List.append_assoc] at hp
  | @withoutBound s out _ test ih =>
    obtain ⟨lost, ih⟩ := ih
    refine ⟨lost, ih.exchange ?_ (ih.ordered.map _)⟩
    have hp := (perm_withoutBound s test).append_right out
    rwa [List.append_assoc] at hp

/-! ## 5. Requests -/

namespace Listed

variable {leased : List BufferId} {id : BufferId} {s' : Space} {out : List Buffer}

/-- **An id that was just leased is nobody's**, whatever the others are bound to or out for. -/
theorem alone_of_bound {lost : List BufferId} (out : List Buffer)
    (h : Listed o s' (id :: ((s'.boundBuffers ++ out).map Buffer.id ++ lost))) :
    s'.arena.state? id = some .leased ∧ ∀ x ∈ s'.buffers out, x.id ≠ id := by
  obtain ⟨hslot, hfree, hfull, hothers⟩ := h.alone
  refine ⟨hslot, fun x hx => ?_⟩
  have hheld (hx : x ∈ s'.boundBuffers ++ out) : x.id ≠ id := by
    intro heq
    exact hothers (List.mem_append_left _ (List.mem_map.2 ⟨x, hx, heq⟩))
  rcases mem_buffers.1 hx with hx | hx | hx | hx
  · exact hfree x hx
  · exact hfull x hx
  · exact hheld (List.mem_append_left _ hx)
  · exact hheld (List.mem_append_right _ hx)

end Listed

namespace Lending

variable {out : List Buffer} {lost : List BufferId} {epoch : Epoch} {owner : Owner} {b : Buffer}
  {how : Acquired} {s' : Space}

/-- **What is leased is lent**: it shares its id with nothing else. -/
theorem lent (h : Lending o s out lost)
    (hrun : Fallible.runOn (Space.acquire grants size epoch owner) s = (.ok (b, how), s'))
    (hb : b.Fresh size epoch owner) : s.Lent out size epoch owner b s' := by
  rcases h.acquire grants size epoch owner with ⟨b', how', s₁, hrun', hvisible, h'⟩ |
    ⟨_, _, _, hrun', -⟩
  · rw [hrun] at hrun'
    cases hrun'
    obtain ⟨hslot, halone⟩ := (h'.listed.perm (leased_cons s' b out lost).symm).alone_of_bound _
    exact ⟨hb, hslot, halone, hvisible⟩
  · rw [hrun] at hrun'
    cases hrun'

/-- **The first free buffer that is large enough is lent.** -/
theorem reuse (h : Lending o s out lost) (grants : Nat → Bool)
    (hsize : size ≤ s.options.maxBufferSize) {before after : List Buffer}
    (hfree : s.free.toList = before ++ b :: after) (hbefore : ∀ x ∈ before, x.capacity < size)
    (hb : size ≤ b.capacity) (epoch : Epoch) (owner : Owner) :
    ∃ s', Fallible.runOn (Space.acquire grants size epoch owner) s =
        (.ok (Buffer.reinitialize b epoch owner, .reused), s') ∧
      s.Lent out size epoch owner (Buffer.reinitialize b epoch owner) s' ∧
      s'.free.toList = before ++ Shelf.closeGap after ∧ s'.arena.live = s.arena.live := by
  obtain ⟨t, ht, hrest⟩ := Shelf.takeFirst?_of_toList (w := .atLeast size) hfree
    (decide_eq_true hb) fun x hx => decide_eq_false (Nat.not_le.2 (hbefore x hx))
  obtain ⟨a, hrun, -, hlive⟩ := runOn_acquire_free grants h.listed.accounts hsize ht epoch owner
  exact ⟨_, hrun, h.lent hrun ⟨Buffer.clean_reinitialized b epoch owner, hb, rfl, rfl⟩, hrest,
    hlive⟩

/-- **Where no free buffer is large enough a slot is taken for a new one.**  Whether the buffer is
made is up to the memory. -/
theorem takesSlot (h : Lending o s out lost) (grants : Nat → Bool) (hs : ¬ s.Exhausted size)
    (hsmall : ∀ x ∈ s.free.toList, x.capacity < size) (epoch : Epoch) (owner : Owner) :
    ∃ id s', s.TakesSlot id s' ∧ s.Stranded out id s' ∧
      Fallible.runOn (Space.acquire grants size epoch owner) s =
        (match Memory.refusal? grants (max size s.options.bufferSize) with
          | some m => .error (.memory m)
          | none => .ok (Buffer.reinitialize
              (.allocate id (max size s.options.bufferSize) s.kind) epoch owner,
              .allocated (decide (s.options.limit ≤ s.arena.live))), s') := by
  have hsize : size ≤ s.options.maxBufferSize := Nat.le_of_not_lt fun hlt => hs (.inl hlt)
  have ht : s.free.takeFirst? (.atLeast size) = none :=
    Shelf.takeFirst?_eq_none_iff.2 fun x hx => decide_eq_false (Nat.not_le.2 (hsmall x hx))
  obtain ⟨s₁, hroom, ho, hspare, hfull⟩ := makeRoom_of_not_exhausted h.listed.accounts hs
  have hvisible : s₁.visible = s.visible := by
    simpa [hroom] using keeps_makeRoom s
  rcases h.listed.makeRoom with ⟨evicted, s₂, hrun, h₁, hl⟩ | hrun
  · obtain ⟨rfl, rfl⟩ : evicted = decide (s.options.limit ≤ s.arena.live) ∧ s₂ = s₁ := by
      simpa [hroom, eq_comm] using hrun
    have hkind : s₂.kind = s.kind := (congrArg Space.kind hvisible :)
    have hlisted := h₁.insert hl
    rw [← boundBuffers_eq hvisible] at hlisted
    obtain ⟨hslot, halone⟩ := hlisted.alone_of_bound out
    refine ⟨s₂.arena.insert.1, _, ⟨fun hlt => ?_, fun hle => ?_⟩, ⟨hslot, halone, hvisible⟩, ?_⟩
    · rw [hspare hlt]
      exact ⟨rfl, s.arena.live_insert⟩
    · obtain ⟨hlive, victim, hsmallest, hgone⟩ := hfull hle
      obtain ⟨hid, hstale⟩ := Arena.insert_of_remove hgone
      exact ⟨s₂.arena.live_insert.trans hlive, victim, Shelf.takeSmallest?_eq_some hsmallest,
        hstale, hid⟩
    · have hacquire := runOn_acquire_new grants hsize ht hroom epoch owner
      cases hm : Memory.refusal? grants (max size s.options.bufferSize) <;>
        simp [hacquire, ho, hkind, hm]
  · rw [hroom] at hrun
    cases hrun

end Lending

/-- **A request is met whenever it can be, and there is memory for it.**  It is refused as
exhaustion exactly if the size is beyond what the pool allows, or no buffer is free and there may be
no more of them; then nothing has changed.  Otherwise the first free buffer that is large enough is
lent and as many are live as before.  If none is, a slot is taken for a new one that is to have the
size or the usual one, whichever is larger, and the smallest free one is given up for it if there
may be no more of them.  The new one is lent if its size can be addressed and the machine grants it.
If not, that is found out too late: the slot stays taken, and nobody has a buffer for it. -/
theorem Trusted.acquisition {out : List Buffer} (h : Trusted kind o s out) (grants : Nat → Bool)
    (size : Nat) (epoch : Epoch) (owner : Owner) :
    let request := Fallible.runOn (Space.acquire grants size epoch owner) s
    ((∃ fault, request.1 = .error fault ∧ fault.report.kind = .exhausted) ↔ s.Exhausted size) ∧
    (s.Exhausted size → request.2 = s) ∧
    (¬ s.Exhausted size →
      (∀ before b after, s.free.toList = before ++ b :: after →
        (∀ x ∈ before, x.capacity < size) → size ≤ b.capacity →
        ∃ b' s', request = (.ok (b', .reused), s') ∧ s.Lent out size epoch owner b' s' ∧
          b'.id = b.id ∧ b'.capacity = b.capacity ∧
          s'.free.toList = before ++ Shelf.closeGap after ∧ s'.arena.live = s.arena.live) ∧
      ((∀ x ∈ s.free.toList, x.capacity < size) → ∃ id s', s.TakesSlot id s' ∧
        (max size o.bufferSize ≤ Memory.addressable → grants (max size o.bufferSize) = true →
          ∃ b, request = (.ok (b, .allocated (decide (o.limit ≤ s.arena.live))), s') ∧
            s.Lent out size epoch owner b s' ∧ b.id = id ∧
            b.capacity = max size o.bufferSize) ∧
        (max size o.bufferSize ≤ Memory.addressable → grants (max size o.bufferSize) = false →
          request = (.error (.memory (.lacking (max size o.bufferSize))), s') ∧
            s.Stranded out id s') ∧
        (Memory.addressable < max size o.bufferSize →
          request = (.error (.memory (.unaddressable (max size o.bufferSize))), s') ∧
            s.Stranded out id s'))) := by
  obtain ⟨lost, hlending⟩ := h.lending
  obtain rfl : s.options = o := hlending.listed.options
  refine ⟨⟨?_, fun hs => ?_⟩, fun hs => ?_, fun hs => ⟨?_, fun hsmall => ?_⟩⟩
  · -- A request that is not refused for exhaustion ends in a lease or for want of memory.
    rintro ⟨fault, hfault, hkind⟩
    by_contra hs
    obtain ⟨m, rfl, -⟩ :=
      (error_iff_of_not_exhausted hlending.listed.accounts hs grants epoch owner fault).1 hfault
    cases m <;> cases hkind
  · obtain ⟨fault, hrun, hkind⟩ := hs.refused grants epoch owner
    exact ⟨fault, by rw [hrun], hkind⟩
  · obtain ⟨fault, hrun, -⟩ := hs.refused grants epoch owner
    rw [hrun]
  · intro before b after hfree hbefore hb
    have hsize : size ≤ s.options.maxBufferSize := Nat.le_of_not_lt fun hlt => hs (.inl hlt)
    obtain ⟨s', hrun, hlent, hrest, hlive⟩ :=
      hlending.reuse grants hsize hfree hbefore hb epoch owner
    exact ⟨_, s', hrun, hlent, rfl, rfl, hrest, hlive⟩
  · obtain ⟨id, s', htakes, hstranded, hrun⟩ := hlending.takesSlot grants hs hsmall epoch owner
    refine ⟨id, s', htakes, fun hsize hg => ?_, fun hsize hg => ?_, fun hsize => ?_⟩
    · simp only [Memory.refusal?, Nat.not_lt.2 hsize, hg, if_false, if_true] at hrun
      have hfresh := Buffer.clean_reinitialized
        (.allocate id (max size s.options.bufferSize) s.kind) epoch owner
      exact ⟨_, hrun, hlending.lent hrun ⟨hfresh, Nat.le_max_left _ _, rfl, rfl⟩, rfl, rfl⟩
    · simp only [Memory.refusal?, Nat.not_lt.2 hsize, hg, if_false] at hrun
      exact ⟨hrun, hstranded⟩
    · simp only [Memory.refusal?, hsize, if_true] at hrun
      exact ⟨hrun, hstranded⟩

/-- Both buffers of a full pool are free and too small: one of them makes room for a request of
100 bytes. -/
theorem Trusted.acquisition_full :
    ∃ b s', Fallible.runOn (Space.acquire (fun _ => true) 100 .zero .global)
        (.create .global ⟨64, 256, 2, 2, 2⟩) = (.ok (b, .allocated true), s') ∧
      b.capacity = 100 ∧ s'.arena.state? b.id = some .leased ∧ s'.arena.live = 2 := by
  have hpool : ¬ Space.Exhausted (.create .global ⟨64, 256, 2, 2, 2⟩) 100 := by
    unfold Space.Exhausted
    decide
  have hsmall : ∀ x ∈ (Space.create .global ⟨64, 256, 2, 2, 2⟩).free.toList, x.capacity < 100 := by
    decide
  have htrusted : Trusted .global ⟨64, 256, 2, 2, 2⟩ (.create .global ⟨64, 256, 2, 2, 2⟩) [] :=
    .create
  obtain ⟨id, s', htakes, hmet, -⟩ :=
    ((Trusted.acquisition htrusted (fun _ => true) 100 .zero .global).2.2 hpool).2 hsmall
  obtain ⟨b, hrun, hlent, -, hcapacity⟩ := hmet (by decide) rfl
  exact ⟨b, s', hrun, hcapacity, hlent.slot, (htakes.full (by decide)).1⟩

/-- **A request for which the pool has something can fail on any machine.**  The options are in
order and the pool is new, but no address is left behind a buffer of the usual size.  One slot is
taken then, and no buffer there is for it. -/
theorem acquisition_unaddressable :
    let o : SpaceOptions := ⟨Memory.addressable + 1, UInt64.size - 1, 0, 0, 4⟩
    o.flaw? .global = none ∧ ¬ (create .global o).Exhausted 32 ∧ ∀ grants, ∃ s',
      Fallible.runOn (acquire grants 32 .zero .global) (create .global o) =
        (.error (.memory (.unaddressable (Memory.addressable + 1))), s') ∧
      s'.arena.live = 1 ∧ s'.buffers [] = [] := by
  refine ⟨by decide, by unfold Exhausted; decide, fun grants => ⟨_, rfl, rfl, rfl⟩⟩

end Space

end TraceRecorder
