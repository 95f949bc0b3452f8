/-
# A pool that is given anything

A pool knows buffers by their ids alone.  What is given back to it may be leased to somebody else,
may have been given back before, or may name a slot that was emptied since or that never was.  The
pool asks the slot, and refuses a buffer whose slot does not say that it is leased.

`Space.Used` are the states of a pool that was asked anything, in any order and with any buffers.
In all of them the lists and the slots agree (`Space.Consistent`), whatever the sizes of the pool
are, and what it refuses leaves no trace (`Space.Withstands`):

* `Listed.acquire`, `Listed.registerFull`, `Listed.reclaim`, `Listed.takeFullWhere`: what one call
  does to lists and slots, with somebody or nobody holding what is leased;
* `Listed.consistent`, `Listed.withstands`: what follows for any state of a pool;
* `Used.misused`: so it is in every state.
-/
import Mathlib.Data.List.Perm.Basic
import TraceRecorder.Proofs.Pool.Custody

namespace TraceRecorder

/-! ## 1. Slots -/

namespace Arena

variable {a : Arena} {held : List Holding} {id : BufferId} {state : SlotState}

theorem refusal?_eq_none_iff : a.refusal? id state = none ↔ a.state? id = some state := by
  unfold refusal?
  cases a.state? id with
  | none => simp
  | some found => by_cases h : found = state <;> simp [h]

/-- **What does not lie where it should is a defect**, and no shortage. -/
theorem kind_of_refusal? {fault : PoolFault} (h : a.refusal? id state = some fault) :
    fault.report.kind = .internal := by
  unfold refusal? at h
  cases hs : a.state? id with
  | none =>
    simp only [hs, Option.some.injEq] at h
    exact h ▸ rfl
  | some found =>
    by_cases hf : found = state
    · simp [hs, hf] at h
    · simp only [hs, hf, if_false, Option.some.injEq] at h
      exact h ▸ rfl

def occupied (a : Arena) (index : Nat) : Bool :=
  (a.slots.find? index).any fun slot => decide (slot.state ≠ SlotState.vacant)

/-- **As many slots are occupied as there are buffers.** -/
theorem Accounts.countP_occupied (h : a.Accounts held) :
    (List.range a.size).countP a.occupied = a.live := by
  have hp : ((List.range a.size).filter a.occupied).Perm (held.map fun x => x.1.index) := by
    refine (List.perm_ext_iff_of_nodup (List.nodup_range.filter _) h.shows.distinct).2 ?_
    intro index
    rw [List.mem_filter, List.mem_range, h.size, List.mem_map]
    constructor
    · rintro ⟨-, hocc⟩
      obtain ⟨slot, hs, hv⟩ := (Option.any_eq_true _ _).1 hocc
      have hv := of_decide_eq_true hv
      exact ⟨_, h.shows.complete index slot hs hv, rfl⟩
    · rintro ⟨x, hx, rfl⟩
      have hs := h.shows.slot x hx
      exact ⟨by rw [hs]; rfl, by simpa [occupied, hs] using h.shows.occupied x hx⟩
  rw [List.countP_eq_length_filter, hp.length_eq, List.length_map, h.live]

theorem Accounts.live_pos (h : a.Accounts held) (hs : a.state? id = some state)
    (hv : state ≠ .vacant) : 0 < a.live := by
  rw [h.live]
  exact List.length_pos_of_mem ((h.state?_eq_some_iff hv).1 hs)

end Arena

namespace Space

/-! ## 2. Lists and slots -/

/-- **What the slots should say**, some ids being leased to whomever. -/
def listings (s : Space) (leased : List BufferId) : List Holding :=
  s.free.toList.map (fun b => (b.id, .free)) ++ (s.full.map (fun b => (b.id, .full)) ++
    leased.map fun id => (id, .leased))

/-- **The slots account for the lists**, and the pool has kept to its sizes. -/
structure Listed (o : SpaceOptions) (s : Space) (leased : List BufferId) : Prop where
  options : s.options = o
  accounts : s.arena.Accounts (s.listings leased)
  live : s.arena.live ≤ max o.limit o.preallocCount
  free : s.free.length ≤ max o.cacheCount o.preallocCount

/-- **No buffer is listed twice, and the lists are those of the slots**: an id is on the free list
if its slot is free and has the generation of the id, and so for the full list. -/
structure Consistent (s : Space) : Prop where
  distinct : ((s.free.toList ++ s.full).map fun b => b.id.index).Nodup
  free : ∀ id, s.arena.state? id = some .free ↔ ∃ b ∈ s.free.toList, b.id = id
  full : ∀ id, s.arena.state? id = some .full ↔ ∃ b ∈ s.full, b.id = id
  live : s.arena.live = (List.range s.arena.size).countP s.arena.occupied
  /-- No slot is emptied that does not count. -/
  counted : ∀ id state, s.arena.state? id = some state → state ≠ .vacant → 0 < s.arena.live

namespace Listed

variable {o : SpaceOptions} {kind : BufferKind} {s : Space} {leased : List BufferId}

theorem create (kind : BufferKind) (o : SpaceOptions) :
    Listed o (.create kind o) [] where
  options := rfl
  accounts := by
    have ha := Arena.accounts_ofFree o.preallocCount
    refine ha.perm (List.Perm.of_eq ?_)
    simp [listings, Space.create, Buffer.allocate, Function.comp_def]
  live := Nat.le_max_right _ _
  free := by
    rw [← Shelf.length_toList]
    exact Nat.le_trans (Nat.le_of_eq (by simp [Space.create])) (Nat.le_max_right _ _)

theorem consistent (h : Listed o s leased) : s.Consistent where
  distinct := by
    have hn := h.accounts.shows.distinct
    rw [listings, ← List.append_assoc, List.map_append] at hn
    simpa [Function.comp_def] using (List.nodup_append.1 hn).1
  free id := by
    rw [h.accounts.state?_eq_some_iff (by decide)]
    simp [listings]
  full id := by
    rw [h.accounts.state?_eq_some_iff (by decide)]
    simp [listings]
  live := h.accounts.countP_occupied.symm
  counted _ _ := h.accounts.live_pos

theorem exists_perm (h : Listed o s leased) {id : BufferId}
    (hs : s.arena.state? id = some .leased) : ∃ rest, leased.Perm (id :: rest) := by
  have hmem := (h.accounts.state?_eq_some_iff (by decide)).1 hs
  have hid : id ∈ leased := by simpa [listings] using hmem
  exact ⟨leased.erase id, List.perm_cons_erase hid⟩

theorem perm (h : Listed o s leased) {leased' : List BufferId} (hp : leased.Perm leased') :
    Listed o s leased' :=
  { h with
    accounts := h.accounts.perm (((hp.map _).append_left _).append_left _) }

theorem listings_cons (s : Space) (id : BufferId) (leased : List BufferId) :
    (s.listings (id :: leased)).Perm ((id, .leased) :: s.listings leased) := by
  unfold listings
  rw [← List.append_assoc, ← List.append_assoc]
  exact List.perm_middle

/-! ## 3. Calls -/

/-- **A new id is leased**, from a pool that has room for it. -/
theorem insert (h : Listed o s leased) (hl : s.arena.live + 1 ≤ max o.limit o.preallocCount) :
    Listed o { s with arena := s.arena.insert.2 } (s.arena.insert.1 :: leased) :=
  ⟨h.options, h.accounts.insert.perm
    (listings_cons { s with arena := s.arena.insert.2 } _ leased).symm,
    s.arena.live_insert ▸ hl, h.free⟩

theorem makeRoom (h : Listed o s leased) :
    (∃ evicted s₁, Fallible.runOn Space.makeRoom s = (.ok evicted, s₁) ∧ Listed o s₁ leased ∧
      s₁.arena.live + 1 ≤ max o.limit o.preallocCount) ∨
    Fallible.runOn Space.makeRoom s = (.error (.limitReached s.kind s.options.limit), s) := by
  have hcache := h.free
  have hlive := h.live
  rcases runOn_makeRoom h.accounts with
    ⟨hrun, hl⟩ | ⟨-, victim, rest, a, hrun, ht, -, ha, hgone⟩ | ⟨hrun, -⟩
  · rw [h.options] at hl
    exact .inl ⟨false, s, hrun, h, by omega⟩
  · have hfree := Shelf.length_of_perm (Shelf.perm_takeSmallest ht)
    exact .inl ⟨true, _, hrun, ⟨h.options, ha, by dsimp only; omega, by dsimp only; omega⟩,
      by dsimp only; omega⟩
  · exact .inr hrun

/-- **One more id is leased**, or the pool is exhausted and nothing has changed.  If there is no
memory for a new buffer its slot is taken all the same. -/
theorem acquire (h : Listed o s leased) (grants : Nat → Bool) (size : Nat) (epoch : Epoch)
    (owner : Owner) :
    (∃ answer s', Fallible.runOn (Space.acquire grants size epoch owner) s = (.ok answer, s') ∧
      Listed o s' (answer.1.id :: leased)) ∨
    (∃ fault, Fallible.runOn (Space.acquire grants size epoch owner) s = (.error fault, s) ∧
      fault.report.kind = .exhausted) ∨
    ∃ m s' id, Fallible.runOn (Space.acquire grants size epoch owner) s =
      (.error (.memory m), s') ∧ Listed o s' (id :: leased) := by
  by_cases hmax : s.options.maxBufferSize < size
  · exact .inr (.inl ⟨.oversized s.kind size, by simp [Space.acquire, hmax], rfl⟩)
  have hsize := Nat.le_of_not_lt hmax
  cases ht : s.free.takeFirst? (.atLeast size) with
  | some found =>
    obtain ⟨b, rest⟩ := found
    have hcache := h.free
    obtain ⟨a, hrun, ha, hlive⟩ := runOn_acquire_free grants h.accounts hsize ht epoch owner
    have hfree := Shelf.length_of_perm (Shelf.perm_takeFirst ht)
    refine .inl ⟨_, _, hrun, h.options, ?_, hlive ▸ h.live, by dsimp only; omega⟩
    exact ha.perm (listings_cons { s with free := rest, arena := a } b.id leased).symm
  | none =>
    rcases h.makeRoom with ⟨evicted, s₁, hrun, h₁, hroom⟩ | hrun
    · have hacquire := runOn_acquire_new grants hsize ht hrun epoch owner
      cases hm : Memory.refusal? grants (max size s₁.options.bufferSize) with
      | some m =>
        simp only [hm] at hacquire
        exact .inr (.inr ⟨m, _, _, hacquire, h₁.insert hroom⟩)
      | none =>
        simp only [hm] at hacquire
        exact .inl ⟨_, _, hacquire, h₁.insert hroom⟩
    · exact .inr (.inl ⟨.limitReached s.kind s.options.limit,
        by simp [Space.acquire, hmax, ht, hrun], rfl⟩)

/-- **A buffer that is leased becomes full**, whoever leased it. -/
theorem registerFull {b : Buffer} (h : Listed o s (b.id :: leased)) :
    ∃ a, Fallible.runOn (Space.registerFull b) s =
        (.ok (), { s with arena := a, full := b.rewind.retire :: s.full }) ∧
      Listed o { s with arena := a, full := b.rewind.retire :: s.full } leased := by
  have hacc := h.accounts.perm (listings_cons s b.id leased)
  obtain ⟨a, hrun, ha⟩ := runOn_move .full hacc (by decide)
  have hlive : a.live = s.arena.live := by
    rw [ha.live, hacc.live, List.length_cons, List.length_cons]
  exact ⟨a, by simp [Space.registerFull, hrun], h.options, ha.perm List.perm_middle.symm,
    hlive ▸ h.live, h.free⟩

/-- **A buffer that is leased comes back**, or is given up if enough are free. -/
theorem reclaimOne {b : Buffer} (h : Listed o s (b.id :: leased)) :
    ∃ s', Fallible.runOn (Space.reclaimOne b) s =
        (.ok (decide (s.options.cacheCount ≤ s.free.length)), s') ∧
      s'.free.toList = s.free.toList ++ (if s.options.cacheCount ≤ s.free.length then []
        else [b.husk]) ∧ s'.full = s.full ∧ Listed o s' leased := by
  have hacc := h.accounts.perm (listings_cons s b.id leased)
  by_cases hc : s.options.cacheCount ≤ s.free.length
  · obtain ⟨a, hrun, ha, hlive⟩ := runOn_giveUp hacc
    have hle : a.live ≤ max o.limit o.preallocCount := by
      have := h.live
      omega
    exact ⟨{ s with arena := a }, by simp [Space.reclaimOne, Nat.not_lt.2 hc, hrun, hc],
      by simp [hc], rfl, h.options, ha, hle, h.free⟩
  · obtain ⟨a, hrun, ha⟩ := runOn_move .free hacc (by decide)
    have hlive : a.live = s.arena.live := by
      rw [ha.live, hacc.live, List.length_cons, List.length_cons]
    have hperm : (({ s with arena := a, free := s.free.push b.husk } : Space).listings
        leased).Perm ((b.id, .free) :: s.listings leased) := by
      simp only [listings, Shelf.toList_push, List.map_append, List.append_assoc]
      exact List.perm_middle
    refine ⟨{ s with arena := a, free := s.free.push b.husk },
      by simp [Space.reclaimOne, Nat.lt_of_not_le hc, hrun, hc, Buffer.husk], by simp [hc], rfl,
      h.options, ha.perm hperm.symm, hlive ▸ h.live, ?_⟩
    -- The list grows only as far as the pool keeps free buffers.
    rw [← Shelf.length_toList, Shelf.toList_push, List.length_append, Shelf.length_toList,
      List.length_singleton]
    have := h.options ▸ Nat.lt_of_not_le hc
    omega

/-- **Full buffers are leased again.** -/
theorem takeFullWhere (h : Listed o s leased) (test : Buffer → Bool) :
    ∃ s', Fallible.runOn (Space.takeFullWhere test) s = (.ok (s.full.filter test).reverse, s') ∧
      s'.free = s.free ∧ s'.full = (s.full.filter fun b => !test b) ∧ s'.bindings = s.bindings ∧
      Listed o s' ((s.full.filter test).reverse.map Buffer.id ++ leased) := by
  have hp : (s.listings leased).Perm (s.full.map (fun b => (b.id, .full)) ++
      (s.free.toList.map (fun b => (b.id, .free)) ++ leased.map fun id => (id, .leased))) := by
    unfold listings
    rw [← List.append_assoc, ← List.append_assoc]
    exact List.perm_append_comm.append_right _
  obtain ⟨a, hrun, ha, hlive⟩ := runOn_takeFullWhere (h.accounts.perm hp) test
  refine ⟨_, hrun, rfl, rfl, rfl, h.options, ha.perm ?_, hlive ▸ h.live, h.free⟩
  rw [List.perm_iff_count]
  intro x
  simp only [listings, List.map_append, List.count_append, List.map_map, Function.comp_def]
  omega

end Listed

/-! ## 4. Refusals -/

theorem registerFull_refused {s : Space} {b : Buffer} (h : s.arena.state? b.id ≠ some .leased) :
    ∃ fault, Fallible.runOn (registerFull b) s = (.error fault, s) ∧
      fault.report.kind = .internal := by
  obtain ⟨fault, hf⟩ := Option.ne_none_iff_exists'.1 (Arena.refusal?_eq_none_iff.not.2 h)
  exact ⟨fault, by simp [registerFull, move, Arena.transition, hf], Arena.kind_of_refusal? hf⟩

theorem reclaimOne_refused {s : Space} {b : Buffer} (h : s.arena.state? b.id ≠ some .leased) :
    ∃ fault, Fallible.runOn (reclaimOne b) s = (.error fault, s) ∧
      fault.report.kind = .internal := by
  obtain ⟨fault, hf⟩ := Option.ne_none_iff_exists'.1 (Arena.refusal?_eq_none_iff.not.2 h)
  refine ⟨fault, ?_, Arena.kind_of_refusal? hf⟩
  by_cases hc : s.free.length < s.options.cacheCount
  · simp [reclaimOne, hc, move, Arena.transition, hf]
  · simp [reclaimOne, hc, giveUp, Arena.remove, hf]

theorem runOn_reclaim_cons {s s' : Space} {b : Buffer} {givenUp : Bool}
    (h : Fallible.runOn (reclaimOne b) s = (.ok givenUp, s')) (rest : List Buffer) :
    Fallible.runOn (reclaim (b :: rest)) s =
      ((Fallible.runOn (reclaim rest) s').1.map (· + if givenUp then 1 else 0),
        (Fallible.runOn (reclaim rest) s').2) := by
  simp only [reclaim, Fallible.runOn_bind, h]
  rcases Fallible.runOn (reclaim rest) s' with ⟨_ | _, _⟩ <;> rfl

theorem runOn_reclaim_refused {s : Space} {b : Buffer} {fault : PoolFault}
    (h : Fallible.runOn (reclaimOne b) s = (.error fault, s)) (rest : List Buffer) :
    Fallible.runOn (reclaim (b :: rest)) s = (.error fault, s) := by
  simp only [reclaim, Fallible.runOn_bind, h]

/-- **What comes behind buffers that came back finds the pool as those left it.** -/
theorem runOn_reclaim_append {s s' : Space} {pre : List Buffer} {n : Nat}
    (h : Fallible.runOn (reclaim pre) s = (.ok n, s')) (rest : List Buffer) :
    Fallible.runOn (reclaim (pre ++ rest)) s =
      ((Fallible.runOn (reclaim rest) s').1.map (· + n), (Fallible.runOn (reclaim rest) s').2) := by
  induction pre generalizing s n with
  | nil =>
    obtain ⟨hn, rfl⟩ := Prod.mk.inj h
    cases hn
    rw [List.nil_append]
    rcases Fallible.runOn (reclaim rest) s with ⟨_ | _, _⟩ <;> rfl
  | cons b pre ih =>
    rcases hone : Fallible.runOn (reclaimOne b) s with ⟨_ | one, s₁⟩
    · simp [reclaim, hone] at h
    · rw [runOn_reclaim_cons hone] at h
      rw [List.cons_append, runOn_reclaim_cons hone]
      rcases hpre : Fallible.runOn (reclaim pre) s₁ with ⟨_ | m, s₂⟩
      · simp [hpre, Except.map] at h
      · simp only [hpre, Except.map, Prod.mk.injEq, Except.ok.injEq] at h
        obtain ⟨rfl, rfl⟩ := h
        rw [ih hpre]
        rcases Fallible.runOn (reclaim rest) s₂ with ⟨_ | _, _⟩
        · rfl
        · simp [Except.map, Nat.add_assoc]

/-- **What a pool does with anything that it is given.** -/
structure Withstands (s : Space) : Prop where
  /-- A buffer becomes full if its slot says that it is leased, and is refused otherwise. -/
  registerFull : ∀ b,
    (s.arena.state? b.id = some .leased → ∃ s', Fallible.runOn (Space.registerFull b) s =
      (.ok (), s') ∧ s'.full = b.rewind.retire :: s.full ∧ s'.free = s.free) ∧
    (s.arena.state? b.id ≠ some .leased → ∃ fault, Fallible.runOn (Space.registerFull b) s =
      (.error fault, s) ∧ fault.report.kind = .internal)
  /-- So it is with a buffer that comes back. -/
  reclaimOne : ∀ b,
    (s.arena.state? b.id = some .leased → ∃ s', Fallible.runOn (Space.reclaimOne b) s =
      (.ok (decide (s.options.cacheCount ≤ s.free.length)), s') ∧
      s'.free.toList = s.free.toList ++
        (if s.options.cacheCount ≤ s.free.length then [] else [b.husk]) ∧ s'.full = s.full) ∧
    (s.arena.state? b.id ≠ some .leased → ∃ fault, Fallible.runOn (Space.reclaimOne b) s =
      (.error fault, s) ∧ fault.report.kind = .internal)
  /-- Buffers come back in order, up to the first that is refused. -/
  reclaim : ∀ buffers, (∃ n s', Fallible.runOn (Space.reclaim buffers) s = (.ok n, s')) ∨
    ∃ pre b post n s' fault, buffers = pre ++ b :: post ∧
      Fallible.runOn (Space.reclaim pre) s = (.ok n, s') ∧ s'.arena.state? b.id ≠ some .leased ∧
      Fallible.runOn (Space.reclaim buffers) s = (.error fault, s') ∧
      fault.report.kind = .internal
  reclaim_refused : ∀ pre b post n s', Fallible.runOn (Space.reclaim pre) s = (.ok n, s') →
    s'.arena.state? b.id ≠ some .leased → ∃ fault,
      Fallible.runOn (Space.reclaim (pre ++ b :: post)) s = (.error fault, s') ∧
      fault.report.kind = .internal
  /-- A lease is met unless the pool is exhausted, or there is no memory for it. -/
  acquire : ∀ grants size epoch owner,
    (∃ answer s', Fallible.runOn (Space.acquire grants size epoch owner) s = (.ok answer, s')) ∨
    (∃ fault, Fallible.runOn (Space.acquire grants size epoch owner) s = (.error fault, s) ∧
      fault.report.kind = .exhausted) ∨
    ∃ m s', Fallible.runOn (Space.acquire grants size epoch owner) s = (.error (.memory m), s')
  /-- Drains are never refused. -/
  takeFull : ∀ epoch, ∃ s', Fallible.runOn (Space.takeFull epoch) s =
    (.ok (s.full.filter fun b => b.epoch == epoch).reverse, s') ∧
      s'.full = s.full.filter fun b => !(b.epoch == epoch)
  takeAllFull : ∃ s', Fallible.runOn Space.takeAllFull s = (.ok s.full.reverse, s') ∧ s'.full = []

namespace Listed

variable {o : SpaceOptions} {s : Space} {leased : List BufferId}

/-- **Any buffers come back**, up to the first that is not leased. -/
theorem reclaim (h : Listed o s leased) (buffers : List Buffer) :
    ((∃ n, (Fallible.runOn (Space.reclaim buffers) s).1 = .ok n) ∨
      ∃ pre b post n fault, buffers = pre ++ b :: post ∧
        Fallible.runOn (Space.reclaim pre) s =
          (.ok n, (Fallible.runOn (Space.reclaim buffers) s).2) ∧
        (Fallible.runOn (Space.reclaim buffers) s).2.arena.state? b.id ≠ some .leased ∧
        (Fallible.runOn (Space.reclaim buffers) s).1 = .error fault ∧
        fault.report.kind = .internal) ∧
    ∃ leased', Listed o (Fallible.runOn (Space.reclaim buffers) s).2 leased' := by
  induction buffers generalizing s leased with
  | nil => exact ⟨.inl ⟨0, rfl⟩, leased, h⟩
  | cons b rest ih =>
    by_cases hb : s.arena.state? b.id = some .leased
    · obtain ⟨leased₁, hp⟩ := h.exists_perm hb
      obtain ⟨s₁, hone, -, -, h₁⟩ := (h.perm hp).reclaimOne
      obtain ⟨hends, leased', h'⟩ := ih h₁
      rw [runOn_reclaim_cons hone]
      refine ⟨?_, leased', h'⟩
      rcases hends with ⟨n, hn⟩ | ⟨pre, x, post, n, fault, rfl, hpre, hx, hf, hk⟩
      · exact .inl ⟨_, by rw [hn]; rfl⟩
      · refine .inr ⟨b :: pre, x, post,
          n + if decide (s.options.cacheCount ≤ s.free.length) then 1 else 0, fault, rfl, ?_, hx,
          by rw [hf]; rfl, hk⟩
        rw [runOn_reclaim_cons hone, hpre]
        rfl
    · obtain ⟨fault, hrun, hk⟩ := reclaimOne_refused hb
      rw [runOn_reclaim_refused hrun]
      exact ⟨.inr ⟨[], b, rest, 0, fault, rfl, rfl, hb, rfl, hk⟩, leased, h⟩

theorem withstands (h : Listed o s leased) : s.Withstands where
  registerFull b := by
    refine ⟨fun hb => ?_, registerFull_refused⟩
    obtain ⟨rest, hp⟩ := h.exists_perm hb
    obtain ⟨a, hrun, -⟩ := (h.perm hp).registerFull
    exact ⟨_, hrun, rfl, rfl⟩
  reclaimOne b := by
    refine ⟨fun hb => ?_, reclaimOne_refused⟩
    obtain ⟨rest, hp⟩ := h.exists_perm hb
    obtain ⟨s', hrun, hfree, hfull, -⟩ := (h.perm hp).reclaimOne
    exact ⟨s', hrun, hfree, hfull⟩
  reclaim buffers := by
    rcases (h.reclaim buffers).1 with ⟨n, hn⟩ | ⟨pre, b, post, n, fault, hsplit, hpre, hb, hf, hk⟩
    · exact .inl ⟨n, _, Prod.ext hn rfl⟩
    · exact .inr ⟨pre, b, post, n, _, fault, hsplit, hpre, hb, Prod.ext hf rfl, hk⟩
  reclaim_refused pre b post n s' hpre hb := by
    obtain ⟨fault, hrun, hk⟩ := reclaimOne_refused hb
    exact ⟨fault, by rw [runOn_reclaim_append hpre, runOn_reclaim_refused hrun]; rfl, hk⟩
  acquire grants size epoch owner := by
    rcases h.acquire grants size epoch owner with ⟨answer, s', hrun, -⟩ | hex | ⟨m, s', -, hrun, -⟩
    · exact .inl ⟨answer, s', hrun⟩
    · exact .inr (.inl hex)
    · exact .inr (.inr ⟨m, s', hrun⟩)
  takeFull epoch := by
    obtain ⟨s', hrun, -, hfull, -⟩ := h.takeFullWhere fun b => b.epoch == epoch
    exact ⟨s', hrun, hfull⟩
  takeAllFull := by
    obtain ⟨s', hrun, -, hfull, -⟩ := h.takeFullWhere fun _ => true
    exact ⟨s', by simpa [Space.takeAllFull] using hrun, by simpa using hfull⟩

end Listed

/-! ## 5. Pools in use -/

/-- **What a pool may be asked**: buffers that are given back may be any buffers. -/
inductive Call where
  | acquire (grants : Nat → Bool) (size : Nat) (epoch : Epoch) (owner : Owner)
  | registerFull (b : Buffer)
  | reclaim (buffers : List Buffer)
  | takeFull (epoch : Epoch)
  | takeAllFull

/-- The pool after a call, whatever the answer was. -/
def after (s : Space) : Call → Space
  | .acquire grants size epoch owner => (Fallible.runOn (acquire grants size epoch owner) s).2
  | .registerFull b => (Fallible.runOn (registerFull b) s).2
  | .reclaim buffers => (Fallible.runOn (reclaim buffers) s).2
  | .takeFull epoch => (Fallible.runOn (takeFull epoch) s).2
  | .takeAllFull => (Fallible.runOn takeAllFull s).2

/-- **The states of a pool that is asked anything.** -/
inductive Used (kind : BufferKind) (o : SpaceOptions) : Space → Prop
  | create : Used kind o (.create kind o)
  | call {s : Space} (h : Used kind o s) (c : Call) : Used kind o (s.after c)

variable {kind : BufferKind} {o : SpaceOptions} {s : Space} {leased : List BufferId}

/-- **Any call leaves lists and slots in agreement.** -/
theorem Listed.after (h : Listed o s leased) (c : Call) :
    ∃ leased', Listed o (s.after c) leased' := by
  cases c with
  | acquire grants size epoch owner =>
    rcases h.acquire grants size epoch owner with ⟨_, s', hrun, h'⟩ | ⟨_, hrun, -⟩ |
      ⟨_, s', _, hrun, h'⟩
    · exact ⟨_, by rw [Space.after, hrun]; exact h'⟩
    · exact ⟨_, by rw [Space.after, hrun]; exact h⟩
    · exact ⟨_, by rw [Space.after, hrun]; exact h'⟩
  | registerFull b =>
    by_cases hb : s.arena.state? b.id = some .leased
    · obtain ⟨rest, hp⟩ := h.exists_perm hb
      obtain ⟨a, hrun, h'⟩ := (h.perm hp).registerFull
      exact ⟨_, by rw [Space.after, hrun]; exact h'⟩
    · obtain ⟨fault, hrun, -⟩ := registerFull_refused hb
      exact ⟨_, by rw [Space.after, hrun]; exact h⟩
  | reclaim buffers => exact (h.reclaim buffers).2
  | takeFull epoch =>
    obtain ⟨s', hrun, -, -, -, h'⟩ := h.takeFullWhere fun b => b.epoch == epoch
    exact ⟨_, by rw [Space.after, Space.takeFull, hrun]; exact h'⟩
  | takeAllFull =>
    obtain ⟨s', hrun, -, -, -, h'⟩ := h.takeFullWhere fun _ => true
    exact ⟨_, by rw [Space.after, Space.takeAllFull, hrun]; exact h'⟩

theorem Used.listed (h : Used kind o s) : ∃ leased, Listed o s leased := by
  induction h with
  | create => exact ⟨[], .create kind o⟩
  | call _ c ih =>
    obtain ⟨leased, h⟩ := ih
    exact h.after c

/-- **A pool withstands misuse.**  Whatever buffers it was given, each buffer on its lists has a
slot of its own that says so, and there are no other slots in these states; as many slots are
occupied as it counts; and neither their number nor that of the free buffers exceeds what it may
have, or was made with.  A buffer whose slot does not say that it is leased is refused, and a
refusal changes nothing but that the buffers in front of it came back.  Leases and drains meet no
defect. -/
theorem Used.misused (h : Used kind o s) :
    s.Consistent ∧ s.arena.live ≤ max o.limit o.preallocCount ∧
      s.free.length ≤ max o.cacheCount o.preallocCount ∧ s.Withstands := by
  obtain ⟨leased, h⟩ := h.listed
  exact ⟨h.consistent, h.live, h.free, h.withstands⟩

theorem Used.calls (h : Used kind o s) (calls : List Call) : Used kind o (calls.foldl after s) := by
  induction calls generalizing s with
  | nil => exact h
  | cons c rest ih => exact ih (h.call c)

/-- Both buffers of a pool are leased, and the first one comes back twice in one call, in front of
the second one.  That one is given up, in front of one that never was; then its slot is leased anew,
and it is to become full under its old id, and the first one while it is free. -/
def foulCalls : List Call :=
  let b (index : Nat) (generation : UInt32) : Buffer := .allocate ⟨index, generation⟩ 64 .global
  let ask (size : Nat) : Call := .acquire (fun _ => true) size .zero .global
  [ask 10, ask 10, .reclaim [b 0 0, b 0 0, b 1 0], .reclaim [b 1 0, b 9 9], ask 128,
   .registerFull (b 1 0), .registerFull (b 0 0)]

/-- The pool ends with one free buffer and one that is leased. -/
theorem Used.misused_foul :
    let s := foulCalls.foldl after (.create .global ⟨64, 128, 1, 1, 2⟩)
    s.free.toList.map Buffer.id = [⟨0, 0⟩] ∧ s.full = [] ∧
      s.arena.state? ⟨1, 1⟩ = some .leased ∧ s.Consistent ∧ s.arena.live ≤ max 2 1 ∧
      s.free.length ≤ max 1 1 ∧ s.Withstands :=
  ⟨by decide, by decide, by decide, Used.misused (Used.create.calls foulCalls)⟩

end Space

end TraceRecorder
