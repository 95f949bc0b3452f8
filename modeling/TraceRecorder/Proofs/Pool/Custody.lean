/-
# Who holds the buffers of a pool

Every buffer of a pool is in one place: on the free list, on the full list, bound to a thread, or
`out`, which is with a writer or a drain.  `Space.Sound` says that the arena accounts for exactly
these buffers, that the pool keeps to its sizes, and what is true of a buffer because of the place
where it is held.

Each operation moves buffers from one place to another, and a sound pool stays sound:

* `Sound.acquire`: one more buffer is out, or there is none to be had and nothing has changed;
* `Sound.registerFull`, `Sound.reclaim`: a buffer that is out becomes full, or free, or is given up;
* `Sound.takeFullWhere`: full buffers are out;
* `Sound.bind`, `Sound.unbind`, `Sound.withoutBound`: bound buffers are exchanged for others or out.

None of them is refused by the arena.  `Space.visible` is what a drain can see of a pool; leases
and returns leave it alone.
-/
import TraceRecorder.Proofs.OrderedDict
import TraceRecorder.Proofs.Outcome
import TraceRecorder.Proofs.Pool.Accounts
import TraceRecorder.Recorder.Lease

namespace TraceRecorder

open Fallible (Keeps)

/-! ## 1. What is true of a buffer in its place -/

namespace Buffer

/-- The buffer is one that the pool can have made, and its bytes fit into it. -/
structure Fits (b : Buffer) (kind : BufferKind) (o : SpaceOptions) : Prop where
  kind : b.kind = kind
  least : o.bufferSize ≤ b.capacity
  most : b.capacity ≤ o.maxBufferSize
  granted : b.capacity ≤ Memory.addressable
  within : b.position ≤ b.capacity

/-- A free buffer is as good as new. -/
structure Clean (b : Buffer) : Prop where
  committed : b.committed = .empty
  pending : b.pending = .empty
  retired : b.retired = false

/-- A full buffer holds entries, and nothing that is not committed. -/
structure Stored (b : Buffer) : Prop where
  retired : b.retired = true
  pending : b.pending = .empty
  used : b.isEmpty = false

/-- A bound buffer belongs to its thread and has room for another small entry. -/
structure Kept (b : Buffer) (thread : ThreadId) : Prop where
  owner : b.owner = .thread thread
  pending : b.pending = .empty
  room : Recorder.keepBoundRoom ≤ b.free

/-- A buffer fresh from its pool. -/
structure Fresh (b : Buffer) (size : Nat) (epoch : Epoch) (owner : Owner) : Prop where
  clean : b.Clean
  room : size ≤ b.capacity
  epoch : b.epoch = epoch
  owner : b.owner = owner

theorem Clean.position {b : Buffer} (h : b.Clean) : b.position = 0 := by
  simp [Buffer.position, h.committed, h.pending]

theorem Clean.free {b : Buffer} (h : b.Clean) : b.free = b.capacity := by
  simp [Buffer.free, h.position]

theorem clean_reinitialized (b : Buffer) (epoch : Epoch) (owner : Owner) :
    Clean <| reinitialize b epoch owner := ⟨rfl, rfl, rfl⟩

theorem Fits.reinitialized {b : Buffer} {kind : BufferKind} {o : SpaceOptions}
    (h : b.Fits kind o) (epoch : Epoch) (owner : Owner) :
    Fits ( reinitialize b epoch owner) kind o :=
  { h with
    within := by
      rw [(clean_reinitialized b epoch owner).position]
      exact Nat.zero_le _ }

/-- The buffer as it comes back to its pool: with nothing in it, and nobody's. -/
def husk (b : Buffer) : Buffer := reinitialize b b.epoch .global

theorem Fits.husk {b : Buffer} {kind : BufferKind} {o : SpaceOptions} (h : b.Fits kind o) :
    b.husk.Fits kind o := h.reinitialized b.epoch .global

theorem Fits.rewind {b : Buffer} {kind : BufferKind} {o : SpaceOptions} (h : b.Fits kind o) :
    b.rewind.Fits kind o :=
  { h with
    within := by
      have hw := h.within
      simp only [Buffer.position, Buffer.rewind, Tape.length_empty] at hw ⊢
      omega }

theorem Fits.retire {b : Buffer} {kind : BufferKind} {o : SpaceOptions} (h : b.Fits kind o) :
    b.retire.Fits kind o := { h with within := h.within }

end Buffer

namespace Shelf

theorem perm_closeGap (after : List Buffer) : (closeGap after).Perm after := by
  rcases List.eq_nil_or_concat after with rfl | ⟨init, last, rfl⟩
  · exact List.Perm.refl _
  · rw [List.concat_eq_append, closeGap_append]
    exact (List.perm_append_singleton last init).symm

theorem perm_takeFirst {s t : Shelf} {w : Wish} {b : Buffer} (h : s.takeFirst? w = some (b, t)) :
    s.toList.Perm (b :: t.toList) := by
  obtain ⟨before, after, hs, -, -, ht⟩ := takeFirst?_eq_some h
  rw [hs, ht]
  exact List.perm_middle.trans (((perm_closeGap after).symm.append_left _).cons _)

theorem perm_takeSmallest {s t : Shelf} {b : Buffer} (h : s.takeSmallest? = some (b, t)) :
    s.toList.Perm (b :: t.toList) := by
  obtain ⟨rack, -, h⟩ := Option.bind_eq_some_iff.1 h
  exact perm_takeFirst h

theorem length_of_perm {s t : Shelf} {b : Buffer} (h : s.toList.Perm (b :: t.toList)) :
    s.length = t.length + 1 := by
  simpa using h.length_eq

end Shelf

theorem Memory.le_addressable_of_refusal?_eq_none {grants : Nat → Bool} {size : Nat}
    (h : refusal? grants size = none) : size ≤ addressable := by
  unfold refusal? at h
  split at h
  · cases h
  · rename_i hsize
    exact Nat.le_of_not_lt hsize

namespace Acquired

def made : Acquired → Nat
  | reused => 0
  | allocated _ => 1

/-- How many buffers a lease gave up to make room. -/
def givenUp : Acquired → Nat
  | reused => 0
  | allocated evicted => if evicted then 1 else 0

end Acquired

/-! ## 2. Places -/

namespace Space

def boundBuffers (s : Space) : List Buffer := (Dict.values s.bindings).filterMap id

/-- All buffers of the pool, those that are `out` among them. -/
def buffers (s : Space) (out : List Buffer) : List Buffer :=
  s.free.toList ++ (s.full ++ (s.boundBuffers ++ out))

/-- **What the slots should say**: bound buffers are leased, like those that are out. -/
def holdings (s : Space) (out : List Buffer) : List Holding :=
  s.free.toList.map (fun b => (b.id, .free)) ++ (s.full.map (fun b => (b.id, .full)) ++
    (s.boundBuffers ++ out).map (fun b => (b.id, .leased)))

/-- What a drain can see of a pool: everything but its free buffers and the slots. -/
def visible (s : Space) : Space := { s with arena := {}, free := .empty }

/-- **A slot is wasted**: it is taken for a buffer that is not there.  All others say what they
should. -/
def Wastes (s : Space) (out : List Buffer) : Prop :=
  ∃ id, s.arena.Accounts ((id, .leased) :: s.holdings out)

/-- **Each buffer is in one place, and is as its place demands.** -/
structure Sound (s : Space) (out : List Buffer) : Prop where
  accounts : s.arena.Accounts (s.holdings out)
  limit : s.arena.live ≤ s.options.limit
  sizes : s.options.bufferSize ≤ s.options.maxBufferSize
  fits : ∀ b ∈ s.buffers out, b.Fits s.kind s.options
  free : ∀ b ∈ s.free.toList, b.Clean
  full : ∀ b ∈ s.full, b.Stored
  bound : ∀ thread b, (thread, some b) ∈ s.bindings → s.kind = .threadLocal ∧ b.Kept thread
  ordered : Dict.Ordered s.bindings

theorem mem_buffers {s : Space} {out : List Buffer} {b : Buffer} :
    b ∈ s.buffers out ↔
      b ∈ s.free.toList ∨ b ∈ s.full ∨ b ∈ s.boundBuffers ∨ b ∈ out := by
  simp [buffers]

theorem mem_buffers_cons {s : Space} {out : List Buffer} {b x : Buffer} :
    x ∈ s.buffers (b :: out) ↔ x = b ∨ x ∈ s.buffers out := by
  simp only [mem_buffers, List.mem_cons]
  grind

theorem mem_boundBuffers {s : Space} {b : Buffer} :
    b ∈ s.boundBuffers ↔ ∃ thread, (thread, some b) ∈ s.bindings := by
  simp [boundBuffers, Dict.values]

theorem map_id_buffers (s : Space) (out : List Buffer) :
    (s.holdings out).map Prod.fst = (s.buffers out).map Buffer.id := by
  simp [holdings, buffers, Function.comp_def]

theorem holdings_cons (s : Space) (b : Buffer) (out : List Buffer) :
    (s.holdings (b :: out)).Perm ((b.id, .leased) :: s.holdings out) := by
  rw [List.perm_iff_count]
  intro x
  simp only [holdings, List.map_append, List.map_cons, List.count_append, List.count_cons]
  omega

theorem id_ne_of_accounts {s : Space} {out : List Buffer} {id : BufferId} {held : List Holding}
    (h : s.arena.Accounts ((id, .leased) :: held)) (hheld : s.holdings out ⊆ held) :
    ∀ x ∈ s.buffers out, x.id ≠ id := by
  intro x hx heq
  have hm : x.id ∈ (s.holdings out).map Prod.fst := by
    rw [map_id_buffers]
    exact List.mem_map.2 ⟨x, hx, rfl⟩
  obtain ⟨holding, hholding, hid⟩ := List.mem_map.1 hm
  exact h.shows.index_ne_of_mem_tail holding (hheld hholding)
    (congrArg BufferId.index (hid.trans heq))

namespace Wastes

variable {s : Space} {b : Buffer} {out : List Buffer}

theorem accounts_out (h : s.Wastes (b :: out)) :
    ∃ held, s.arena.Accounts ((b.id, .leased) :: held) ∧ s.holdings out ⊆ held := by
  obtain ⟨id, h⟩ := h
  have hp := ((s.holdings_cons b out).cons (id, .leased)).trans (List.Perm.swap _ _ _)
  exact ⟨_, h.perm hp, List.subset_cons_self _ _⟩

theorem slot (h : s.Wastes (b :: out)) : s.arena.state? b.id = some .leased := by
  obtain ⟨_, h, -⟩ := h.accounts_out
  exact h.state?_eq List.mem_cons_self

theorem id_ne (h : s.Wastes (b :: out)) : ∀ x ∈ s.buffers out, x.id ≠ b.id := by
  obtain ⟨_, h, hheld⟩ := h.accounts_out
  exact id_ne_of_accounts h hheld

end Wastes

namespace Sound

variable {s : Space} {b : Buffer} {out out' : List Buffer}

theorem perm (h : s.Sound out) (hp : out.Perm out') : s.Sound out' :=
  { h with
    accounts := h.accounts.perm
      (List.Perm.append_left _ (List.Perm.append_left _ ((hp.append_left _).map _)))
    fits := by
      intro b hb
      refine h.fits b (mem_buffers.2 ?_)
      simpa only [hp.mem_iff] using mem_buffers.1 hb }

theorem accounts_out (h : s.Sound (b :: out)) :
    s.arena.Accounts ((b.id, .leased) :: s.holdings out) :=
  h.accounts.perm (s.holdings_cons b out)

theorem fits_out (h : s.Sound (b :: out)) : b.Fits s.kind s.options :=
  h.fits b (mem_buffers_cons.2 (.inl rfl))

theorem fits_tail (h : s.Sound (b :: out)) : ∀ x ∈ s.buffers out, x.Fits s.kind s.options :=
  fun x hx => h.fits x (mem_buffers_cons.2 (.inr hx))

theorem id_ne (h : s.Sound (b :: out)) : ∀ x ∈ s.buffers out, x.id ≠ b.id :=
  id_ne_of_accounts h.accounts_out (List.Subset.refl _)

theorem replace (h : s.Sound (b :: out)) {b' : Buffer} (hid : b'.id = b.id)
    (hf : b'.Fits s.kind s.options) : s.Sound (b' :: out) :=
  { h with
    accounts := by
      have ha := h.accounts_out
      rw [← hid] at ha
      exact ha.perm (s.holdings_cons b' out).symm
    fits := by
      intro x hx
      rcases mem_buffers_cons.1 hx with rfl | hx
      · exact hf
      · exact h.fits_tail x hx }

end Sound

/-! ## 3. Moves of slots -/

theorem runOn_move {s : Space} {id : BufferId} {source : SlotState} {held : List Holding}
    (target : SlotState) (h : s.arena.Accounts ((id, source) :: held)) (ht : target ≠ .vacant) :
    ∃ a, Fallible.runOn (move id source target) s = (.ok (), { s with arena := a }) ∧
      a.Accounts ((id, target) :: held) := by
  obtain ⟨a, ha, hacc⟩ := h.transition ht
  refine ⟨a, ?_, hacc⟩
  simp [move, ha]

theorem runOn_giveUp {s : Space} {id : BufferId} {source : SlotState} {held : List Holding}
    (h : s.arena.Accounts ((id, source) :: held)) :
    ∃ a, Fallible.runOn (giveUp id source) s = (.ok (), { s with arena := a }) ∧
      a.Accounts held ∧ a.live + 1 = s.arena.live := by
  obtain ⟨a, ha, hacc, hlive⟩ := h.remove
  refine ⟨a, ?_, hacc, hlive⟩
  simp [giveUp, ha]

/-- A free buffer that is large enough is leased, whoever holds the others. -/
theorem runOn_acquire_free (grants : Nat → Bool) {s : Space} {b : Buffer} {rest : Shelf}
    {held : List Holding}
    (h : s.arena.Accounts (s.free.toList.map (fun b => (b.id, .free)) ++ held)) {size : Nat}
    (hsize : size ≤ s.options.maxBufferSize)
    (ht : s.free.takeFirst? (.atLeast size) = some (b, rest)) (epoch : Epoch) (owner : Owner) :
    ∃ a, Fallible.runOn (acquire grants size epoch owner) s =
        (.ok (Buffer.reinitialize b epoch owner, .reused), { s with free := rest, arena := a }) ∧
      a.Accounts ((b.id, .leased) :: (rest.toList.map (fun b => (b.id, .free)) ++ held)) ∧
      a.live = s.arena.live := by
  have hp := Shelf.perm_takeFirst ht
  let s₁ : Space := { s with free := rest }
  have hacc : s₁.arena.Accounts
      ((b.id, .free) :: (rest.toList.map (fun b => (b.id, .free)) ++ held)) :=
    h.perm ((hp.map _).append_right _)
  obtain ⟨a, hrun, ha⟩ := runOn_move .leased hacc (by decide)
  refine ⟨a, by simp [acquire, Nat.not_lt.2 hsize, ht, s₁, hrun], ha, ?_⟩
  rw [ha.live, h.live.trans ((hp.map _).append_right _).length_eq]
  rfl

/-- Room is made by giving up the smallest free buffer if the space is full, whoever holds the
others. -/
theorem runOn_makeRoom {s : Space} {held : List Holding}
    (h : s.arena.Accounts (s.free.toList.map (fun b => (b.id, .free)) ++ held)) :
    (Fallible.runOn makeRoom s = (.ok false, s) ∧ s.arena.live < s.options.limit) ∨
    (s.options.limit ≤ s.arena.live ∧ ∃ victim rest a,
      Fallible.runOn makeRoom s = (.ok true, { s with free := rest, arena := a }) ∧
      s.free.takeSmallest? = some (victim, rest) ∧ s.arena.remove victim.id .free = .ok a ∧
      a.Accounts (rest.toList.map (fun b => (b.id, .free)) ++ held) ∧
      a.live + 1 = s.arena.live) ∨
    (Fallible.runOn makeRoom s = (.error (.limitReached s.kind s.options.limit), s) ∧
      s.free.toList = [] ∧ s.options.limit ≤ s.arena.live) := by
  by_cases hl : s.arena.live < s.options.limit
  · exact .inl ⟨by simp [makeRoom, hl], hl⟩
  · have hfull : s.options.limit ≤ s.arena.live := Nat.le_of_not_lt hl
    cases ht : s.free.takeSmallest? with
    | none =>
      exact .inr (.inr ⟨by simp [makeRoom, hl, ht], Shelf.takeSmallest?_eq_none_iff.1 ht, hfull⟩)
    | some found =>
      obtain ⟨victim, rest⟩ := found
      have hp := (Shelf.perm_takeSmallest ht).map fun b => ((b.id, .free) : Holding)
      obtain ⟨a, ha, hacc, hlive⟩ := (h.perm (hp.append_right held)).remove
      exact .inr (.inl ⟨hfull, victim, rest, a, by simp [makeRoom, hl, ht, giveUp, ha], rfl, ha,
        hacc, hlive⟩)

theorem runOn_allocate (grants : Nat → Bool) (s : Space) (size : Nat) (epoch : Epoch)
    (owner : Owner) :
    Fallible.runOn (allocate grants size epoch owner) s =
      (match Memory.refusal? grants (max size s.options.bufferSize) with
        | some fault => .error (.memory fault)
        | none => .ok (Buffer.reinitialize
          (.allocate s.arena.insert.1 (max size s.options.bufferSize) s.kind) epoch owner),
        { s with arena := s.arena.insert.2 }) := by
  cases hm : Memory.refusal? grants (max size s.options.bufferSize) <;> simp [allocate, hm]

/-- A new buffer is leased where no free one is large enough and there is room for it, unless there
is no memory for it. -/
theorem runOn_acquire_new (grants : Nat → Bool) {s s₁ : Space} {size : Nat} {evicted : Bool}
    (hsize : size ≤ s.options.maxBufferSize) (ht : s.free.takeFirst? (.atLeast size) = none)
    (hroom : Fallible.runOn makeRoom s = (.ok evicted, s₁)) (epoch : Epoch) (owner : Owner) :
    Fallible.runOn (acquire grants size epoch owner) s =
      (match Memory.refusal? grants (max size s₁.options.bufferSize) with
        | some fault => .error (.memory fault)
        | none => .ok (Buffer.reinitialize (.allocate s₁.arena.insert.1
          (max size s₁.options.bufferSize) s₁.kind) epoch owner, .allocated evicted),
        { s₁ with arena := s₁.arena.insert.2 }) := by
  have hallocate := runOn_allocate grants s₁ size epoch owner
  cases hm : Memory.refusal? grants (max size s₁.options.bufferSize) <;> rw [hm] at hallocate <;>
    simp [acquire, Nat.not_lt.2 hsize, ht, hroom, hallocate]

/-! ## 4. Leases -/

/-- The space makes room for a new buffer, if it can. -/
theorem Sound.makeRoom {s : Space} {out : List Buffer} (h : s.Sound out) :
    (Fallible.runOn makeRoom s = (.ok false, s) ∧ s.arena.live < s.options.limit) ∨
    (∃ s', Fallible.runOn makeRoom s = (.ok true, s') ∧ s'.Sound out ∧
      s'.visible = s.visible ∧ s'.arena.live + 1 = s.arena.live) ∨
    Fallible.runOn makeRoom s = (.error (.limitReached s.kind s.options.limit), s) := by
  rcases runOn_makeRoom h.accounts with hroom | ⟨-, victim, rest, a, hrun, ht, -, ha, hlive⟩ |
    ⟨hfull, -⟩
  · exact .inl hroom
  · have hsub : ∀ b ∈ rest.toList, b ∈ s.free.toList :=
      fun b hb => (Shelf.perm_takeSmallest ht).mem_iff.2 (List.mem_cons_of_mem _ hb)
    have hle : a.live ≤ s.options.limit := by
      have := h.limit
      omega
    refine .inr (.inl ⟨_, hrun, ?_, rfl, hlive⟩)
    refine { h with accounts := ha, limit := hle, fits := ?_, free := ?_ }
    · intro b hb
      exact h.fits b (mem_buffers.2 ((mem_buffers.1 hb).imp (hsub b) id))
    · intro b hb
      exact h.free b (hsub b hb)
  · exact .inr (.inr hfull)

/-- A new buffer is made where there is room for one, unless there is no memory for it. -/
theorem Sound.allocate {s : Space} {out : List Buffer} (h : s.Sound out)
    (hl : s.arena.live < s.options.limit) (grants : Nat → Bool) {size : Nat}
    (hs : size ≤ s.options.maxBufferSize)
    (epoch : Epoch) (owner : Owner) :
    (∃ b s', Fallible.runOn (Space.allocate grants size epoch owner) s = (.ok b, s') ∧
      s'.Sound (b :: out) ∧ b.Fresh size epoch owner ∧ s'.visible = s.visible ∧
      s'.arena.live = s.arena.live + 1) ∨
    ∃ m s', Fallible.runOn (Space.allocate grants size epoch owner) s = (.error (.memory m), s') ∧
      s'.Wastes out := by
  have hacc := h.accounts.insert
  cases hm : Memory.refusal? grants (max size s.options.bufferSize) with
  | some m =>
    exact .inr ⟨m, { s with arena := s.arena.insert.2 }, by rw [runOn_allocate, hm], _, hacc⟩
  | none =>
    have hlive : s.arena.insert.2.live = s.arena.live + 1 := s.arena.live_insert
    let b := Buffer.reinitialize
      (Buffer.allocate s.arena.insert.1 (max size s.options.bufferSize) s.kind) epoch owner
    let s' : Space := { s with arena := s.arena.insert.2 }
    have hb : b.Clean := Buffer.clean_reinitialized _ epoch owner
    have hfits : b.Fits s.kind s.options :=
      { kind := rfl
        least := Nat.le_max_right _ _
        most := Nat.max_le.2 ⟨hs, h.sizes⟩
        granted := Memory.le_addressable_of_refusal?_eq_none hm
        within := hb.position ▸ Nat.zero_le _ }
    refine .inl ⟨b, s', by rw [runOn_allocate, hm], ?_,
      ⟨hb, Nat.le_max_left _ _, rfl, rfl⟩, rfl, hlive⟩
    refine { h with accounts := ?_, limit := ?_, fits := ?_ }
    · exact hacc.perm (s'.holdings_cons b out).symm
    · exact hlive ▸ hl
    · intro x hx
      rcases mem_buffers_cons.1 hx with rfl | hx
      · exact hfits
      · exact h.fits x hx

/-- A free buffer is large enough: it changes places. -/
theorem Sound.acquire_free {s : Space} {out : List Buffer} {b : Buffer} {rest : Shelf}
    (h : s.Sound out) (grants : Nat → Bool) {size : Nat} (hsize : size ≤ s.options.maxBufferSize)
    (ht : s.free.takeFirst? (.atLeast size) = some (b, rest)) (epoch : Epoch) (owner : Owner) :
    ∃ b' s', Fallible.runOn (Space.acquire grants size epoch owner) s = (.ok (b', .reused), s') ∧
      s'.Sound (b' :: out) ∧ b'.Fresh size epoch owner ∧ s'.visible = s.visible ∧
      s'.arena.live = s.arena.live := by
  obtain ⟨-, -, -, -, hmeets, -⟩ := Shelf.takeFirst?_eq_some ht
  obtain ⟨a, hrun, ha, hlive⟩ := runOn_acquire_free grants h.accounts hsize ht epoch owner
  have hp := Shelf.perm_takeFirst ht
  have hsub : ∀ x ∈ rest.toList, x ∈ s.free.toList :=
    fun x hx => hp.mem_iff.2 (List.mem_cons_of_mem _ hx)
  refine ⟨_, _, hrun, ?_, ⟨Buffer.clean_reinitialized b epoch owner, of_decide_eq_true hmeets, rfl,
    rfl⟩, rfl, hlive⟩
  refine { h with accounts := ?_, limit := hlive ▸ h.limit, fits := ?_, free := ?_ }
  · exact ha.perm (holdings_cons { s with free := rest, arena := a }
      (Buffer.reinitialize b epoch owner) out).symm
  · intro x hx
    rcases mem_buffers_cons.1 hx with rfl | hx
    · exact (h.fits b (mem_buffers.2 (.inl (hp.mem_iff.2 List.mem_cons_self)))).reinitialized epoch
        owner
    · exact h.fits x (mem_buffers.2 ((mem_buffers.1 hx).imp_left (hsub x)))
  · intro x hx
    exact h.free x (hsub x hx)

/-- **One more buffer is out.**  If none is to be had nothing has changed, unless there is no
memory for a new one. -/
theorem Sound.acquire {s : Space} {out : List Buffer} (h : s.Sound out) (grants : Nat → Bool)
    (size : Nat) (epoch : Epoch) (owner : Owner) :
    (∃ b how s', Fallible.runOn (Space.acquire grants size epoch owner) s = (.ok (b, how), s') ∧
      s'.Sound (b :: out) ∧ b.Fresh size epoch owner ∧ s'.visible = s.visible ∧
      s'.arena.live + how.givenUp = s.arena.live + how.made) ∨
    (∃ fault, Fallible.runOn (Space.acquire grants size epoch owner) s = (.error fault, s) ∧
      fault.report.isExhausted = true) ∨
    ∃ m s', Fallible.runOn (Space.acquire grants size epoch owner) s = (.error (.memory m), s') ∧
      s'.Wastes out := by
  by_cases hmax : s.options.maxBufferSize < size
  · exact .inr (.inl ⟨.oversized s.kind size, by simp [Space.acquire, hmax], rfl⟩)
  have hsize : size ≤ s.options.maxBufferSize := Nat.le_of_not_lt hmax
  cases ht : s.free.takeFirst? (.atLeast size) with
  | some found =>
    obtain ⟨b, s', hrun, hs', hb, hvis, hlive⟩ := h.acquire_free grants hsize ht epoch owner
    exact .inl ⟨b, .reused, s', hrun, hs', hb, hvis, hlive⟩
  | none =>
    -- There is room for a new buffer, or a free one that is too small makes room.
    rcases h.makeRoom with ⟨hrun, hl⟩ | ⟨s₁, hrun, h₁, hvis, hlive⟩ | hrun
    · rcases h.allocate hl grants hsize epoch owner with ⟨b, s', hrun', hs', hb, hvis', hlive'⟩ |
        ⟨m, s', hrun', hwastes⟩
      · exact .inl ⟨b, .allocated false, s', by simp [Space.acquire, hmax, ht, hrun, hrun'],
          hs', hb, hvis', hlive'⟩
      · exact .inr (.inr ⟨m, s', by simp [Space.acquire, hmax, ht, hrun, hrun'], hwastes⟩)
    · have ho : s₁.visible.options = s.visible.options := congrArg Space.options hvis
      have hl : s₁.arena.live < s₁.options.limit := by
        have := h.limit
        have : s₁.options.limit = s.options.limit := congrArg SpaceOptions.limit ho
        omega
      have hsize₁ : size ≤ s₁.options.maxBufferSize :=
        Nat.le_trans hsize (Nat.le_of_eq (congrArg SpaceOptions.maxBufferSize ho).symm)
      rcases h₁.allocate hl grants hsize₁ epoch owner with ⟨b, s', hrun', hs', hb, hvis', hlive'⟩ |
        ⟨m, s', hrun', hwastes⟩
      · exact .inl ⟨b, .allocated true, s', by simp [Space.acquire, hmax, ht, hrun, hrun'],
          hs', hb, hvis'.trans hvis, by simp [Acquired.givenUp, Acquired.made]; omega⟩
      · exact .inr (.inr ⟨m, s', by simp [Space.acquire, hmax, ht, hrun, hrun'], hwastes⟩)
    · exact .inr (.inl ⟨.limitReached s.kind s.options.limit,
        by simp [Space.acquire, hmax, ht, hrun], rfl⟩)

/-! ## 5. Returns -/

/-- **A buffer that is out becomes full.** -/
theorem Sound.registerFull {s : Space} {b : Buffer} {out : List Buffer} (h : s.Sound (b :: out))
    (hb : b.isEmpty = false) :
    ∃ a, Fallible.runOn (Space.registerFull b) s =
        (.ok (), { s with arena := a, full := b.rewind.retire :: s.full }) ∧
      Sound { s with arena := a, full := b.rewind.retire :: s.full } out ∧
      a.live = s.arena.live := by
  obtain ⟨a, hrun, ha⟩ := runOn_move .full h.accounts_out (by decide)
  have hlive : a.live = s.arena.live := by
    rw [ha.live, h.accounts_out.live, List.length_cons, List.length_cons]
  refine ⟨a, by simp [Space.registerFull, hrun], ?_, hlive⟩
  refine { h with accounts := ?_, limit := hlive ▸ h.limit, fits := ?_, full := ?_ }
  · exact ha.perm List.perm_middle.symm
  · intro x hx
    rcases mem_buffers.1 hx with hx | hx | hx | hx
    · exact h.fits_tail x (mem_buffers.2 (.inl hx))
    · rcases List.mem_cons.1 hx with rfl | hx
      · exact h.fits_out.rewind.retire
      · exact h.fits_tail x (mem_buffers.2 (.inr (.inl hx)))
    · exact h.fits_tail x (mem_buffers.2 (.inr (.inr (.inl hx))))
    · exact h.fits_tail x (mem_buffers.2 (.inr (.inr (.inr hx))))
  · intro x hx
    rcases List.mem_cons.1 hx with rfl | hx
    · exact ⟨rfl, rfl, hb⟩
    · exact h.full x hx

/-- How many more free buffers the pool keeps. -/
def vacancies (s : Space) : Nat := s.options.cacheCount - s.free.length

/-- One buffer that is out comes back, or is given up. -/
theorem Sound.reclaimOne {s : Space} {b : Buffer} {out : List Buffer} (h : s.Sound (b :: out)) :
    ∃ givenUp s', Fallible.runOn (Space.reclaimOne b) s = (.ok givenUp, s') ∧ s'.Sound out ∧
      s'.visible = s.visible ∧ s'.arena.live + (if givenUp then 1 else 0) = s.arena.live ∧
      s'.free.toList = s.free.toList ++ ([b].take s.vacancies).map Buffer.husk ∧
      (if givenUp then 1 else 0) = ([b].drop s.vacancies).length := by
  by_cases hc : s.free.length < s.options.cacheCount
  · obtain ⟨a, hrun, ha⟩ := runOn_move .free h.accounts_out (by decide)
    have hlive : a.live = s.arena.live := by
      rw [ha.live, h.accounts_out.live, List.length_cons, List.length_cons]
    obtain ⟨left, hroom⟩ : ∃ left, s.vacancies = left + 1 :=
      Nat.exists_eq_succ_of_ne_zero (Nat.sub_ne_zero_of_lt hc)
    refine ⟨false, { s with arena := a, free := s.free.push b.husk },
      by simp [Space.reclaimOne, hc, hrun, Buffer.husk], ?_, rfl, hlive, ?_, ?_⟩
    · refine { h with accounts := ?_, limit := hlive ▸ h.limit, fits := ?_, free := ?_ }
      · refine ha.perm ?_
        simp only [holdings, Shelf.toList_push, List.map_append, List.append_assoc]
        exact List.perm_middle.symm
      · intro x hx
        rcases mem_buffers.1 hx with hx | hx | hx | hx
        · rw [Shelf.toList_push] at hx
          rcases List.mem_append.1 hx with hx | hx
          · exact h.fits_tail x (mem_buffers.2 (.inl hx))
          · exact List.mem_singleton.1 hx ▸ h.fits_out.husk
        · exact h.fits_tail x (mem_buffers.2 (.inr (.inl hx)))
        · exact h.fits_tail x (mem_buffers.2 (.inr (.inr (.inl hx))))
        · exact h.fits_tail x (mem_buffers.2 (.inr (.inr (.inr hx))))
      · intro x hx
        rw [Shelf.toList_push] at hx
        rcases List.mem_append.1 hx with hx | hx
        · exact h.free x hx
        · exact List.mem_singleton.1 hx ▸ Buffer.clean_reinitialized _ _ _
    · rw [Shelf.toList_push, hroom, List.take_succ_cons, List.take_nil]
      rfl
    · rw [hroom, List.drop_succ_cons, List.drop_nil]
      rfl
  · obtain ⟨a, hrun, ha, hlive⟩ := runOn_giveUp h.accounts_out
    have hle : a.live ≤ s.options.limit := by
      have := h.limit
      omega
    have hfull : s.vacancies = 0 := Nat.sub_eq_zero_of_le (Nat.le_of_not_lt hc)
    refine ⟨true, { s with arena := a }, by simp [Space.reclaimOne, hc, hrun],
      { h with accounts := ha, limit := hle, fits := h.fits_tail }, rfl, hlive, ?_, ?_⟩
    · rw [hfull]
      exact (List.append_nil _).symm
    · rw [hfull]
      rfl

/-- **Buffers that are out come back**, as many as the pool keeps, and the others are given up. -/
theorem Sound.reclaim {buffers : List Buffer} {s : Space} {out : List Buffer}
    (h : s.Sound (buffers ++ out)) :
    ∃ givenUp s', Fallible.runOn (Space.reclaim buffers) s = (.ok givenUp, s') ∧ s'.Sound out ∧
      s'.visible = s.visible ∧ s'.arena.live + givenUp = s.arena.live ∧
      s'.free.toList = s.free.toList ++ (buffers.take s.vacancies).map Buffer.husk ∧
      givenUp = (buffers.drop s.vacancies).length := by
  induction buffers generalizing s with
  | nil => exact ⟨0, s, rfl, h, rfl, rfl, by simp, by simp⟩
  | cons b rest ih =>
    obtain ⟨one, s₁, hrun₁, h₁, hvis₁, hlive₁, hfree₁, hone⟩ := h.reclaimOne
    obtain ⟨more, s', hrun, h', hvis, hlive, hfree, hmore⟩ := ih h₁
    -- The first buffer takes one of the vacancies, if there is one.
    have hleft : s₁.vacancies = s.vacancies - 1 := by
      have hlength := congrArg List.length hfree₁
      have hoptions : s₁.options = s.options := (congrArg Space.options hvis₁ :)
      simp only [Shelf.length_toList, List.length_append, List.length_map, List.length_take,
        List.length_singleton] at hlength
      rw [vacancies, hoptions, hlength]
      unfold vacancies
      omega
    have htake : (b :: rest).take s.vacancies =
        [b].take s.vacancies ++ rest.take s₁.vacancies := by
      show ([b] ++ rest).take s.vacancies = _
      rw [List.take_append, hleft, List.length_singleton]
    have hdrop : (b :: rest).drop s.vacancies =
        [b].drop s.vacancies ++ rest.drop s₁.vacancies := by
      show ([b] ++ rest).drop s.vacancies = _
      rw [List.drop_append, hleft, List.length_singleton]
    refine ⟨_, s', by simp only [Space.reclaim, Fallible.runOn_bind, hrun₁, hrun]; rfl, h',
      hvis.trans hvis₁, ?_, ?_, ?_⟩
    · omega
    · rw [hfree, hfree₁, htake, List.map_append, List.append_assoc]
    · rw [hdrop, List.length_append, hmore, hone, Nat.add_comm]

theorem reclaim_husks (buffers : List Buffer) :
    Space.reclaim (buffers.map Buffer.husk) = Space.reclaim buffers := by
  induction buffers with
  | nil => rfl
  | cons b rest ih =>
    have hone : Space.reclaimOne b.husk = Space.reclaimOne b := rfl
    rw [List.map_cons, Space.reclaim, hone, ih]
    rfl

/-! ## 6. Drains -/

theorem runOn_leaseFull {taken : List Buffer} {s : Space} {held : List Holding}
    (h : s.arena.Accounts (taken.map (fun b => (b.id, .full)) ++ held)) :
    ∃ a, Fallible.runOn (leaseFull taken) s = (.ok (), { s with arena := a }) ∧
      a.Accounts (taken.map (fun b => (b.id, .leased)) ++ held) := by
  induction taken generalizing s held with
  | nil => exact ⟨s.arena, rfl, h⟩
  | cons b rest ih =>
    obtain ⟨a₁, hrun₁, h₁⟩ := runOn_move .leased h (by decide)
    have hp : (((b.id, .leased) : Holding) :: (rest.map (fun b => (b.id, .full)) ++ held)).Perm
        (rest.map (fun b => (b.id, .full)) ++ (b.id, .leased) :: held) := List.perm_middle.symm
    obtain ⟨a, hrun, ha⟩ := ih (s := { s with arena := a₁ }) (h₁.perm hp)
    refine ⟨a, ?_, ha.perm List.perm_middle⟩
    simp only [leaseFull, Fallible.runOn_bind, hrun₁, hrun]

/-- Full buffers are taken off the list, whoever holds the others. -/
theorem runOn_takeFullWhere {s : Space} {held : List Holding}
    (h : s.arena.Accounts (s.full.map (fun b => (b.id, .full)) ++ held)) (test : Buffer → Bool) :
    ∃ a, Fallible.runOn (takeFullWhere test) s = (.ok (s.full.filter test).reverse,
        { s with arena := a, full := s.full.filter fun b => !test b }) ∧
      a.Accounts ((s.full.filter fun b => !test b).map (fun b => (b.id, .full)) ++
        ((s.full.filter test).reverse.map (fun b => (b.id, .leased)) ++ held)) ∧
      a.live = s.arena.live := by
  have hsplit : s.full.Perm ((s.full.filter test).reverse ++ s.full.filter fun b => !test b) :=
    (List.filter_append_perm test s.full).symm.trans
      ((List.reverse_perm _).symm.append_right _)
  have hp := (hsplit.map fun b => ((b.id, .full) : Holding)).append_right held
  rw [List.map_append, List.append_assoc] at hp
  have hacc := h.perm hp
  obtain ⟨a, hrun, ha⟩ := runOn_leaseFull
    (s := { s with full := s.full.filter fun b => !test b }) hacc
  refine ⟨a, by simp only [takeFullWhere, Fallible.runOn_bind, Fallible.runOn_get,
    Fallible.runOn_set, Fallible.runOn_pure]; rw [hrun], ha.perm ?_, ?_⟩
  · rw [← List.append_assoc, ← List.append_assoc]
    exact List.perm_append_comm.append_right _
  · rw [ha.live, hacc.live]
    simp

/-- **Full buffers are out.** -/
theorem Sound.takeFullWhere {s : Space} {out : List Buffer} (h : s.Sound out)
    (test : Buffer → Bool) :
    ∃ a, Fallible.runOn (Space.takeFullWhere test) s = (.ok (s.full.filter test).reverse,
        { s with arena := a, full := s.full.filter fun b => !test b }) ∧
      Sound { s with arena := a, full := s.full.filter fun b => !test b }
        ((s.full.filter test).reverse ++ out) ∧
      a.live = s.arena.live := by
  have hp : (s.holdings out).Perm (s.full.map (fun b => (b.id, .full)) ++
      (s.free.toList.map (fun b => (b.id, .free)) ++
        (s.boundBuffers ++ out).map fun b => (b.id, .leased))) := by
    unfold holdings
    rw [← List.append_assoc, ← List.append_assoc]
    exact List.perm_append_comm.append_right _
  obtain ⟨a, hrun, ha, hlive⟩ := runOn_takeFullWhere (h.accounts.perm hp) test
  refine ⟨a, hrun, ?_, hlive⟩
  refine { h with accounts := ?_, limit := hlive ▸ h.limit, fits := ?_, full := ?_ }
  · refine ha.perm ?_
    rw [List.perm_iff_count]
    intro x
    simp only [holdings, boundBuffers, List.map_append, List.count_append]
    omega
  · intro x hx
    refine h.fits x (mem_buffers.2 ?_)
    rcases mem_buffers.1 hx with hx | hx | hx | hx
    · exact .inl hx
    · exact .inr (.inl ((List.mem_filter.1 hx).1))
    · exact .inr (.inr (.inl hx))
    · rcases List.mem_append.1 hx with hx | hx
      · exact .inr (.inl ((List.mem_filter.1 (List.mem_reverse.1 hx)).1))
      · exact .inr (.inr (.inr hx))
  · intro x hx
    exact h.full x ((List.mem_filter.1 hx).1)

/-! ## 7. Bindings -/

theorem Sound.exchange {s : Space} {out out' : List Buffer} (h : s.Sound out)
    {d : Dict ThreadId (Option Buffer)}
    (hp : ((Dict.values d).filterMap id ++ out').Perm (s.boundBuffers ++ out))
    (hb : ∀ thread b, (thread, some b) ∈ d → s.kind = .threadLocal ∧ b.Kept thread)
    (ho : Dict.Ordered d) : Sound { s with bindings := d } out' := by
  refine { h with accounts := ?_, fits := ?_, bound := hb, ordered := ho }
  · refine h.accounts.perm ?_
    exact List.Perm.append_left _ (List.Perm.append_left _ ((hp.symm).map _))
  · intro b hb
    refine h.fits b (mem_buffers.2 ?_)
    have hm := mem_buffers.1 hb
    rw [← List.mem_append] at hm ⊢
    exact hm.imp id (Or.imp id (hp.mem_iff.1 ·))

theorem toList_join (o : Option (Option Buffer)) : o.toList.filterMap id = o.join.toList := by
  rcases o with _ | _ | b <;> rfl

theorem perm_bind {s : Space} (h : Dict.Ordered s.bindings) (thread : ThreadId)
    (o : Option Buffer) :
    ((s.bind thread o).boundBuffers ++ (s.bound? thread).toList).Perm
      (o.toList ++ s.boundBuffers) := by
  have hp := (Dict.perm_insert h thread o).filterMap id
  have ho : (o :: Dict.values s.bindings).filterMap id = o.toList ++ s.boundBuffers := by
    cases o <;> rfl
  rw [List.filterMap_append, toList_join, ho] at hp
  exact List.perm_append_comm.trans hp

theorem perm_unbind {s : Space} (h : Dict.Ordered s.bindings) (thread : ThreadId) :
    ((s.unbind thread).boundBuffers ++ (s.bound? thread).toList).Perm s.boundBuffers := by
  have hp := (Dict.perm_erase h thread).filterMap id
  rw [List.filterMap_append, toList_join] at hp
  exact List.perm_append_comm.trans hp

theorem perm_withoutBound (s : Space) (test : Buffer → Bool) :
    ((s.withoutBound test).boundBuffers ++ s.boundWhere test).Perm s.boundBuffers := by
  unfold boundBuffers withoutBound boundWhere Dict.values
  generalize s.bindings = d
  induction d with
  | nil => exact List.Perm.refl _
  | cons entry rest ih =>
    obtain ⟨thread, _ | b⟩ := entry
    · exact ih
    · by_cases ht : test b = true
      · simpa [Option.filter, ht] using List.perm_middle.trans (ih.cons b)
      · simpa [Option.filter, ht] using ih.cons b

/-- **A thread's binding is exchanged**: what was bound is out, and what was out may be bound. -/
theorem Sound.bind {s : Space} {out : List Buffer} {o : Option Buffer} (thread : ThreadId)
    (h : s.Sound (o.toList ++ out))
    (ho : ∀ b, o = some b → s.kind = .threadLocal ∧ b.Kept thread) :
    (s.bind thread o).Sound ((s.bound? thread).toList ++ out) := by
  refine h.exchange ?_ ?_ (h.ordered.insert _ _)
  · have hp := (perm_bind h.ordered thread o).append_right out
    rw [List.append_assoc] at hp
    refine hp.trans ?_
    rw [List.append_assoc]
    exact List.perm_append_comm_assoc _ _ _
  · intro t b hm
    rcases Dict.mem_of_mem_insert hm with heq | hm
    · cases heq
      exact ho b rfl
    · exact h.bound t b hm

/-- **A thread is unbound**: what was bound to it is out. -/
theorem Sound.unbind {s : Space} {out : List Buffer} (h : s.Sound out) (thread : ThreadId) :
    (s.unbind thread).Sound ((s.bound? thread).toList ++ out) := by
  refine h.exchange ?_ ?_ (h.ordered.erase _)
  · rw [← List.append_assoc]
    exact (perm_unbind h.ordered thread).append_right out
  · intro t b hm
    exact h.bound t b (Dict.mem_of_mem_erase hm)

/-- **Bound buffers are out.** -/
theorem Sound.withoutBound {s : Space} {out : List Buffer} (h : s.Sound out)
    (test : Buffer → Bool) : (s.withoutBound test).Sound (s.boundWhere test ++ out) := by
  refine h.exchange ?_ ?_ (h.ordered.map _)
  · rw [← List.append_assoc]
    exact (perm_withoutBound s test).append_right out
  · intro t b hm
    obtain ⟨⟨t', o⟩, he, heq⟩ := List.mem_map.1 hm
    simp only [Prod.mk.injEq, Option.filter_eq_some_iff] at heq
    obtain ⟨rfl, rfl, -⟩ := heq
    exact h.bound t' b he

/-! ## 8. The first buffers -/

/-- A new pool is sound, and all its buffers are free. -/
theorem sound_create {kind : BufferKind} {o : SpaceOptions} {space : BufferKind}
    (hf : o.flaw? space = none) {grants : Nat → Bool}
    (hm : o.preallocCount = 0 ∨ Memory.refusal? grants o.bufferSize = none) :
    (create kind o).Sound [] := by
  have hrules : o.bufferSize ≤ o.maxBufferSize ∧ o.preallocCount ≤ o.limit := by
    unfold SpaceOptions.flaw? at hf
    split at hf
    · cases hf
    · split at hf
      · cases hf
      · split at hf
        · cases hf
        · split at hf
          · cases hf
          · omega
  have hfree : ∀ b ∈ (create kind o).free.toList,
      0 < o.preallocCount ∧ ∃ index, b = .allocate ⟨index, 0⟩ o.bufferSize kind := by
    intro b hb
    simp only [create, Shelf.toList_ofList, List.mem_map, List.mem_range] at hb
    obtain ⟨index, hi, rfl⟩ := hb
    exact ⟨by omega, index, rfl⟩
  refine ⟨?_, hrules.2, hrules.1, ?_, ?_, ?_, ?_, .nil⟩
  · have ha := Arena.accounts_ofFree o.preallocCount
    refine ha.perm (List.Perm.of_eq ?_)
    simp [holdings, create, boundBuffers, Dict.values, Buffer.allocate, Function.comp_def]
  · intro b hb
    have hb' : b ∈ (create kind o).free.toList := by
      simpa [buffers, create, boundBuffers, Dict.values] using hb
    obtain ⟨hpos, index, rfl⟩ := hfree b hb'
    have hmem : Memory.refusal? grants o.bufferSize = none := hm.resolve_left (by omega)
    exact ⟨rfl, Nat.le_refl _, hrules.1, Memory.le_addressable_of_refusal?_eq_none hmem,
      Nat.zero_le _⟩
  · intro b hb
    obtain ⟨-, index, rfl⟩ := hfree b hb
    exact ⟨rfl, rfl, rfl⟩
  · intro b hb
    cases hb
  · intro thread b hb
    cases hb

/-! ## 9. What drains do not see -/

theorem keeps_move (id : BufferId) (source target : SlotState) :
    Keeps visible (move id source target) := by
  refine .get_bind fun s => ?_
  split <;> rfl

theorem keeps_giveUp (id : BufferId) (source : SlotState) : Keeps visible (giveUp id source) := by
  refine .get_bind fun s => ?_
  split <;> rfl

theorem keeps_allocate (grants : Nat → Bool) (size : Nat) (e : Epoch) (owner : Owner) :
    Keeps visible (allocate grants size e owner) := by
  refine .get_bind fun s => ?_
  dsimp only
  rw [Fallible.runOn_bind, Fallible.runOn_set]
  dsimp only
  split <;> rfl

theorem keeps_makeRoom : Keeps visible makeRoom := by
  refine .get_bind fun s => ?_
  split
  · rfl
  · split
    · rfl
    · rw [Fallible.runOn_bind, Fallible.runOn_set]
      exact ((keeps_giveUp _ _).bind fun _ => .pure true) _

/-- **A lease takes nothing that drains could see.** -/
theorem keeps_acquire (grants : Nat → Bool) (size : Nat) (e : Epoch) (owner : Owner) :
    Keeps visible (acquire grants size e owner) := by
  refine .get_bind fun s => ?_
  split
  · rfl
  · split
    · rw [Fallible.runOn_bind, Fallible.runOn_set]
      exact ((keeps_move _ _ _).bind fun _ => .pure _) _
    · exact (keeps_makeRoom.bind fun evicted =>
        (keeps_allocate grants size e owner).bind fun b => .pure _) s

theorem keeps_reclaim (buffers : List Buffer) : Keeps visible (reclaim buffers) := by
  have hone : ∀ b, Keeps visible (reclaimOne b) := by
    intro b
    refine .get_bind fun s => ?_
    split
    · refine (keeps_move _ _ _).bind (fun _ => ?_) s
      exact Keeps.bind (.update fun _ => rfl) fun _ => .pure false
    · exact ((keeps_giveUp _ _).bind fun _ => .pure true) s
  induction buffers with
  | nil => exact .pure 0
  | cons b rest ih => exact (hone b).bind fun _ => ih.bind fun _ => .pure _

end Space

end TraceRecorder
