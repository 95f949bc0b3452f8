/-
# The ids of an arena

The id of a buffer is the place of its slot and the number of times that the slot had been emptied.
So an arena under any row of calls keeps dates: `ArenaUse.Dated` says that the generation of a slot
is the number of its removals, that the ids issued for it are those of all generations so far, and
that the removed ones are those of earlier generations.  Generations are words, and the dates are
right as long as no slot is emptied as often as there are words (`ArenaKeeper.Lasting`).

`ArenaUse.Effect` says once what a call can do, with the guard under which it does so, and the rest
is read off it:

* `Effect.dated`, `Effect.sound`: every call keeps the dates, the stack of vacant slots and the
  counts;
* `Sound.insert`, `Sound.transition_done`, `Sound.remove_done`: what the next call comes to in any
  state that calls lead to;
* `Space.Used.exists_calls`: the arena of a pool is one that only such calls were made on.
-/
import Mathlib.Data.List.Nodup
import TraceRecorder.Pool.ArenaCalls
import TraceRecorder.Proofs.Pool.Misuse

namespace TraceRecorder

theorem Row.find?_insert {α : Type} (r : Row α) (m n : Nat) (a : α) :
    (r.insert n a).find? m = if m = n then some a else r.find? m := by
  by_cases h : m = n
  · rw [if_pos h, h, find?_insert_self]
  · rw [if_neg h, find?_insert_of_ne _ h]

theorem BufferId.eq_iff {a b : BufferId} (same : a.index = b.index) :
    a = b ↔ a.generation = b.generation := by
  cases a
  cases b
  simp_all

namespace Arena

variable {a a' : Arena} {id other : BufferId} {index : Nat} {generation : UInt32}
  {state : SlotState}

/-- **An id is that of its slot's generation**, or it is stale. -/
theorem state?_eq_some :
    a.state? id = some state ↔ a.slots.find? id.index = some ⟨id.generation, state⟩ := by
  unfold state?
  cases a.slots.find? id.index with
  | none => simp
  | some slot =>
    obtain ⟨generation, found⟩ := slot
    by_cases h : generation = id.generation <;> simp [h]

/-- **Only one id has the state of a slot**: the one of its generation. -/
theorem state?_of_slots (slots : a'.slots = a.slots.insert index ⟨generation, state⟩)
    (id : BufferId) :
    a'.state? id = if id.index = index then if generation = id.generation then some state else none
      else a.state? id := by
  rw [state?, slots, Row.find?_insert]
  split <;> rfl

theorem state?_of_ne (slots : a'.slots = a.slots.insert id.index ⟨id.generation, state⟩)
    (before : ∀ slot, a.slots.find? id.index = some slot → slot.generation = id.generation)
    (other_ne : other ≠ id) : a'.state? other = a.state? other := by
  rw [state?_of_slots slots]
  split
  case isFalse => rfl
  case isTrue same =>
    have earlier := (BufferId.eq_iff same).not.1 other_ne
    rw [if_neg (Ne.symm earlier), state?, same]
    cases found : a.slots.find? id.index with
    | none => rfl
    | some slot => simp [before slot found, Ne.symm earlier]

end Arena

namespace ArenaKeeper

variable {α ι : Type} (k : ArenaKeeper α ι)

/-- What was issued stays issued, what was removed stays removed, and the most buffers that there
were at once do not become fewer. -/
theorem suffix_call (u : ArenaUse α ι) (c : ArenaCall ι) :
    u.issued <:+ (k.call u c).2.issued ∧ u.removed <:+ (k.call u c).2.removed ∧
      u.peak ≤ (k.call u c).2.peak := by
  cases c with
  | insert => exact ⟨List.suffix_cons _ _, List.suffix_rfl, Nat.le_max_left _ _⟩
  | transition id source target =>
    unfold call
    dsimp only
    split <;> exact ⟨List.suffix_rfl, List.suffix_rfl, Nat.le_refl _⟩
  | remove id source =>
    unfold call
    dsimp only
    split
    · exact ⟨List.suffix_rfl, List.suffix_rfl, Nat.le_refl _⟩
    · exact ⟨List.suffix_rfl, List.suffix_cons _ _, Nat.le_refl _⟩

theorem suffix_callAll (u : ArenaUse α ι) (calls : List (ArenaCall ι)) :
    u.issued <:+ (k.callAll u calls).issued ∧ u.removed <:+ (k.callAll u calls).removed ∧
      u.peak ≤ (k.callAll u calls).peak := by
  induction calls generalizing u with
  | nil => exact ⟨List.suffix_rfl, List.suffix_rfl, Nat.le_refl _⟩
  | cons c calls ih =>
    obtain ⟨issued, removed, peak⟩ := ih (k.call u c).2
    obtain ⟨issued', removed', peak'⟩ := k.suffix_call u c
    exact ⟨issued'.trans issued, removed'.trans removed, Nat.le_trans peak' peak⟩

theorem callAll_append (u : ArenaUse α ι) (calls later : List (ArenaCall ι)) :
    k.callAll u (calls ++ later) = k.callAll (k.callAll u calls) later :=
  List.foldl_append

theorem lasting_of_callAll {u : ArenaUse α ι} {calls : List (ArenaCall ι)}
    (lasting : k.Lasting (k.callAll u calls)) : k.Lasting u :=
  fun place => Nat.lt_of_le_of_lt
    ((k.suffix_callAll u calls).2.1.sublist.countP_le) (lasting place)

end ArenaKeeper

namespace ArenaUse

variable {u u' : ArenaUse Arena BufferId} {id : BufferId} {index : Nat} {c : ArenaCall BufferId}
  {answer : ArenaAnswer BufferId}

def removals (u : ArenaUse Arena BufferId) (index : Nat) : Nat :=
  u.removed.countP fun id => id.index == index

/-! ## 1. What a call can do -/

/-- **What a call can do**, with the guard under which it does so. -/
inductive Effect (u : ArenaUse Arena BufferId) :
    ArenaCall BufferId → ArenaAnswer BufferId → ArenaUse Arena BufferId → Prop where
  /-- The slot that was emptied last is taken. -/
  | reused (index : Nat) (generation : UInt32) (vacant : List Nat)
      (stack : u.arena.vacant = index :: vacant)
      (found : u.arena.slots.find? index = some ⟨generation, .vacant⟩) :
      Effect u .insert (.issued ⟨index, generation⟩)
        { u with
          arena :=
            { u.arena.setSlot index ⟨generation, .leased⟩ with
              live := u.arena.live + 1, vacant := vacant }
          issued := ⟨index, generation⟩ :: u.issued
          peak := max u.peak (u.arena.live + 1) }
  /-- There is none, and the table gets a new one. -/
  | grown (stack : u.arena.vacant = []) (found : u.arena.slots.find? u.arena.size = none) :
      Effect u .insert (.issued ⟨u.arena.size, 0⟩)
        { u with
          arena :=
            { u.arena.setSlot u.arena.size ⟨0, .leased⟩ with
              size := u.arena.size + 1, live := u.arena.live + 1 }
          issued := ⟨u.arena.size, 0⟩ :: u.issued
          peak := max u.peak (u.arena.live + 1) }
  | moved (id : BufferId) (source target : SlotState) (found : u.arena.state? id = some source) :
      Effect u (.transition id source target) .done
        { u with arena := u.arena.setSlot id.index ⟨id.generation, target⟩ }
  | emptied (id : BufferId) (source : SlotState) (found : u.arena.state? id = some source) :
      Effect u (.remove id source) .done
        { u with
          arena :=
            { u.arena.setSlot id.index ⟨id.generation + 1, .vacant⟩ with
              live := u.arena.live - 1, vacant := id.index :: u.arena.vacant }
          removed := id :: u.removed }
  /-- The slot is in another state, or the id is stale. -/
  | unmoved (id : BufferId) (source target : SlotState) (fault : PoolFault)
      (refusal : u.arena.refusal? id source = some fault) :
      Effect u (.transition id source target) (.refused fault) u
  | unemptied (id : BufferId) (source : SlotState) (fault : PoolFault)
      (refusal : u.arena.refusal? id source = some fault) :
      Effect u (.remove id source) (.refused fault) u

theorem effect {held : List Holding} (h : u.arena.Accounts held) (c : ArenaCall BufferId) :
    Effect u c (Arena.keeper.call u c).1 (Arena.keeper.call u c).2 := by
  cases c with
  | insert =>
    cases stack : u.arena.vacant with
    | nil =>
      have found : u.arena.slots.find? u.arena.size = none := by
        have hsize := h.size u.arena.size
        simpa using hsize
      simpa [ArenaKeeper.call, Arena.keeper, Arena.insert, stack] using Effect.grown stack found
    | cons index vacant =>
      obtain ⟨generation, found⟩ := (h.vacant index).1 (by simp [stack])
      simpa [ArenaKeeper.call, Arena.keeper, Arena.insert, stack, found] using
        Effect.reused index generation vacant stack found
  | transition id source target =>
    cases refusal : u.arena.refusal? id source with
    | none =>
      simpa [ArenaKeeper.call, Arena.keeper, Arena.transition, refusal] using
        Effect.moved id source target (Arena.refusal?_eq_none_iff.1 refusal)
    | some fault =>
      simpa [ArenaKeeper.call, Arena.keeper, Arena.transition, refusal] using
        Effect.unmoved id source target fault refusal
  | remove id source =>
    cases refusal : u.arena.refusal? id source with
    | none =>
      simpa [ArenaKeeper.call, Arena.keeper, Arena.remove, refusal] using
        Effect.emptied id source (Arena.refusal?_eq_none_iff.1 refusal)
    | some fault =>
      simpa [ArenaKeeper.call, Arena.keeper, Arena.remove, refusal] using
        Effect.unemptied id source fault refusal

theorem effect_of_call {held : List Holding} (h : u.arena.Accounts held)
    (run : Arena.keeper.call u c = (answer, u')) : Effect u c answer u' := by
  have e := effect h c
  rwa [run] at e

/-! ## 2. Dates -/

theorem removals_cons (u : ArenaUse Arena BufferId) (arena : Arena) (id : BufferId) (index : Nat) :
    ({ u with arena := arena, removed := id :: u.removed } :
        ArenaUse Arena BufferId).removals index =
      u.removals index + if id.index = index then 1 else 0 := by
  simp [removals, List.countP_cons]

/-- **Slots and ids are dated by removals.** -/
structure Dated (u : ArenaUse Arena BufferId) : Prop where
  slot : ∀ index slot, u.arena.slots.find? index = some slot →
    slot.generation.toNat = u.removals index
  /-- What is not in the table was never emptied. -/
  absent : ∀ index, u.arena.slots.find? index = none → u.removals index = 0
  /-- The ids of the generation of a slot and of all earlier ones were issued. -/
  issued : ∀ id, id ∈ u.issued ↔ ∃ slot, u.arena.slots.find? id.index = some slot ∧
    (id.generation.toNat < u.removals id.index ∨
      id.generation = slot.generation ∧ slot.state ≠ .vacant)
  /-- Those of all earlier ones were removed. -/
  removed : ∀ id, id ∈ u.removed ↔ id.generation.toNat < u.removals id.index
  distinct : u.issued.Nodup
  once : u.removed.Nodup

theorem Dated.create : Dated { arena := {} } := by
  constructor <;> simp [removals]

theorem Dated.mem_issued (h : u.Dated)
    (free : ∀ slot, u.arena.slots.find? id.index = some slot → slot.state = .vacant) :
    id ∈ u.issued ↔ id.generation.toNat < u.removals id.index := by
  rw [h.issued]
  constructor
  · rintro ⟨slot, found, earlier | ⟨-, occupied⟩⟩
    · exact earlier
    · exact absurd (free slot found) occupied
  · intro earlier
    cases found : u.arena.slots.find? id.index with
    | none => simp [h.absent _ found] at earlier
    | some slot => exact ⟨slot, rfl, .inl earlier⟩

/-- **A new id joins the ids of its slot**, of which none has its generation. -/
theorem Dated.give (h : u.Dated) {arena : Arena} (id : BufferId)
    (dated : id.generation.toNat = u.removals id.index)
    (free : ∀ slot, u.arena.slots.find? id.index = some slot → slot.state = .vacant)
    (slots : arena.slots = u.arena.slots.insert id.index ⟨id.generation, .leased⟩) (peak : Nat) :
    Dated { u with arena := arena, issued := id :: u.issued, peak := peak } where
  slot index slot found := by
    rw [slots, Row.find?_insert] at found
    split at found
    case isTrue same =>
      cases found
      exact same ▸ dated
    case isFalse => exact h.slot index slot found
  absent index found := by
    rw [slots, Row.find?_insert] at found
    split at found
    case isTrue => cases found
    case isFalse => exact h.absent index found
  issued other := by
    rw [slots, Row.find?_insert, List.mem_cons]
    by_cases same : other.index = id.index
    · rw [h.mem_issued (same ▸ free), BufferId.eq_iff same, if_pos same, or_comm]
      simp [removals]
    · have other_ne : other ≠ id := fun equal => same (congrArg _ equal)
      rw [if_neg same, or_iff_right other_ne]
      exact h.issued other
  removed := h.removed
  distinct := by
    refine List.nodup_cons.2 ⟨fun before => ?_, h.distinct⟩
    rw [h.mem_issued free, dated] at before
    exact Nat.lt_irrefl _ before
  once := h.once

variable {source target : SlotState}

/-- A buffer that changes its state keeps its id. -/
theorem Dated.move (h : u.Dated) (found : u.arena.state? id = some source)
    (occupied : source ≠ .vacant) (target_ne : target ≠ .vacant) :
    Dated { u with arena := u.arena.setSlot id.index ⟨id.generation, target⟩ } where
  slot index slot found' := by
    rw [Arena.setSlot, Row.find?_insert] at found'
    split at found'
    case isTrue same =>
      cases found'
      subst same
      exact h.slot id.index ⟨id.generation, source⟩ (Arena.state?_eq_some.1 found)
    case isFalse => exact h.slot index slot found'
  absent index found' := by
    rw [Arena.setSlot, Row.find?_insert] at found'
    split at found'
    case isTrue => cases found'
    case isFalse => exact h.absent index found'
  issued other := by
    rw [Arena.state?_eq_some] at found
    rw [Arena.setSlot, Row.find?_insert, h.issued]
    by_cases same : other.index = id.index
    · simp [same, found, occupied, target_ne, removals]
    · rw [if_neg same]
      rfl
  removed := h.removed
  distinct := h.distinct
  once := h.once

/-- **A removed id is of an earlier generation from then on**, if generations do not start anew. -/
theorem Dated.drop (h : u.Dated) (found : u.arena.state? id = some source)
    (occupied : source ≠ .vacant) {arena : Arena}
    (slots : arena.slots = u.arena.slots.insert id.index ⟨id.generation + 1, .vacant⟩)
    (lasting : u.removals id.index + 1 < UInt32.size) :
    Dated { u with arena := arena, removed := id :: u.removed } := by
  rw [Arena.state?_eq_some] at found
  have dated : id.generation.toNat = u.removals id.index := h.slot _ _ found
  have next : (id.generation + 1).toNat = u.removals id.index + 1 := by
    rw [UInt32.toNat_add, dated]
    exact Nat.mod_eq_of_lt lasting
  -- an id of this slot is of the generation that ends, or of an earlier one
  have now (other : BufferId) (same : other.index = id.index) :
      other.generation.toNat < u.removals id.index + 1 ↔
        other = id ∨ other.generation.toNat < u.removals id.index := by
    rw [BufferId.eq_iff same, ← UInt32.toNat_inj, dated]
    omega
  refine ⟨fun index slot found' => ?_, fun index found' => ?_, fun other => ?_, fun other => ?_,
    h.distinct, List.nodup_cons.2 ⟨?_, h.once⟩⟩
  · rw [slots, Row.find?_insert] at found'
    rw [removals_cons]
    split at found'
    case isTrue same =>
      cases found'
      rw [same, if_pos rfl, next]
    case isFalse differ => rw [if_neg (Ne.symm differ), Nat.add_zero, h.slot index slot found']
  · rw [slots, Row.find?_insert] at found'
    rw [removals_cons]
    split at found'
    case isTrue => cases found'
    case isFalse differ => rw [if_neg (Ne.symm differ), Nat.add_zero, h.absent index found']
  · rw [slots, Row.find?_insert, removals_cons, h.issued]
    by_cases same : other.index = id.index
    · rw [same, found, if_pos rfl, if_pos rfl, now other same, BufferId.eq_iff same]
      simp [occupied, or_comm]
    · rw [if_neg same, if_neg (Ne.symm same), Nat.add_zero]
  · rw [List.mem_cons, removals_cons, h.removed]
    by_cases same : other.index = id.index
    · rw [same, if_pos rfl, now other same]
    · have other_ne : other ≠ id := fun equal => same (congrArg _ equal)
      rw [if_neg (Ne.symm same), Nat.add_zero, or_iff_right other_ne]
  · rw [h.removed, dated]
    exact Nat.lt_irrefl _

/-- **Calls keep the dates.** -/
theorem Effect.dated (e : Effect u c answer u') (h : u.Dated) (proper : c.Proper)
    (lasting : Arena.keeper.Lasting u') : u'.Dated := by
  cases e with
  | reused index generation vacant stack found =>
    refine h.give ⟨index, generation⟩ (h.slot _ _ found) ?_ rfl _
    intro slot found'
    cases found.symm.trans found'
    rfl
  | grown stack found =>
    refine h.give ⟨u.arena.size, 0⟩ (h.absent _ found).symm ?_ rfl _
    intro slot found'
    cases found.symm.trans found'
  | moved id source target found => exact h.move found proper.1 proper.2
  | emptied id source found =>
    refine h.drop found proper rfl ?_
    have last : ArenaUse.removals _ id.index < UInt32.size := lasting id.index
    rwa [removals_cons, if_pos rfl] at last
  | unmoved | unemptied => exact h

/-! ## 3. Counts -/

variable {held : List Holding}

/-- **What is on the stack is what is vacant in the table.** -/
theorem mem_vacant (h : u.arena.Accounts held) :
    index ∈ u.arena.vacant ↔ index < u.arena.size ∧ u.arena.occupied index = false := by
  rw [h.vacant, h.size, Arena.occupied]
  cases found : u.arena.slots.find? index with
  | none => simp
  | some slot =>
    obtain ⟨generation, state⟩ := slot
    simp

theorem live_add_vacant (h : u.arena.Accounts held) :
    u.arena.live + u.arena.vacant.length = u.arena.size := by
  have vacant : u.arena.vacant.Perm
      ((List.range u.arena.size).filter fun index => !u.arena.occupied index) := by
    refine (List.perm_ext_iff_of_nodup h.stack (List.nodup_range.filter _)).2 fun index => ?_
    rw [mem_vacant h]
    simp
  have all := List.length_eq_countP_add_countP u.arena.occupied (l := List.range u.arena.size)
  rw [List.length_range, h.countP_occupied] at all
  rw [vacant.length_eq, ← List.countP_eq_length_filter]
  simpa using all.symm

/-- A call leaves an arena that accounts for buffers. -/
theorem exists_accounts_call (h : u.arena.Accounts held) (proper : c.Proper) :
    ∃ held', (Arena.keeper.call u c).2.arena.Accounts held' := by
  cases c with
  | insert => exact ⟨_, h.insert⟩
  | transition id source target =>
    by_cases found : u.arena.state? id = some source
    · have member := (h.state?_eq_some_iff proper.1).1 found
      obtain ⟨a, moved, accounts⟩ := (h.perm (List.perm_cons_erase member)).transition proper.2
      exact ⟨_, by simpa [ArenaKeeper.call, Arena.keeper, moved] using accounts⟩
    · obtain ⟨fault, refusal⟩ :=
        Option.ne_none_iff_exists'.1 (Arena.refusal?_eq_none_iff.not.2 found)
      exact ⟨held, by simpa [ArenaKeeper.call, Arena.keeper, Arena.transition, refusal] using h⟩
  | remove id source =>
    by_cases found : u.arena.state? id = some source
    · have member := (h.state?_eq_some_iff proper).1 found
      obtain ⟨a, emptied, accounts, -⟩ := (h.perm (List.perm_cons_erase member)).remove
      exact ⟨_, by simpa [ArenaKeeper.call, Arena.keeper, emptied] using accounts⟩
    · obtain ⟨fault, refusal⟩ :=
        Option.ne_none_iff_exists'.1 (Arena.refusal?_eq_none_iff.not.2 found)
      exact ⟨held, by simpa [ArenaKeeper.call, Arena.keeper, Arena.remove, refusal] using h⟩

theorem Effect.grown_eq (e : Effect u c answer u') (h : u.arena.Accounts held)
    (grown : u.arena.size = u.peak) : u'.arena.size = u'.peak := by
  have all := live_add_vacant h
  cases e with
  | reused index generation vacant stack found =>
    rw [stack, List.length_cons] at all
    show u.arena.size = max u.peak (u.arena.live + 1)
    omega
  | grown stack found =>
    rw [stack, List.length_nil] at all
    show u.arena.size + 1 = max u.peak (u.arena.live + 1)
    omega
  | moved | emptied | unmoved | unemptied => exact grown

/-- **An arena that is right about its buffers**, and no larger than it ever had to be. -/
structure Counted (u : ArenaUse Arena BufferId) : Prop where
  accounts : ∃ held, u.arena.Accounts held
  grown : u.arena.size = u.peak

theorem Counted.create : Counted { arena := {} } := ⟨⟨[], Arena.accounts_ofFree 0⟩, rfl⟩

theorem Counted.call (h : u.Counted) (proper : c.Proper) : (Arena.keeper.call u c).2.Counted := by
  obtain ⟨held, accounts⟩ := h.accounts
  exact ⟨exists_accounts_call accounts proper, (effect accounts c).grown_eq accounts h.grown⟩

theorem Counted.callAll {calls : List (ArenaCall BufferId)} (h : u.Counted)
    (proper : ∀ c ∈ calls, c.Proper) : (Arena.keeper.callAll u calls).Counted := by
  induction calls generalizing u with
  | nil => exact h
  | cons c calls ih =>
    exact ih (h.call (proper c List.mem_cons_self)) fun c' member =>
      proper c' (List.mem_cons_of_mem c member)

/-- **What calls keep.** -/
structure Sound (u : ArenaUse Arena BufferId) : Prop extends Counted u where
  dated : u.Dated

theorem Sound.create : Sound { arena := {} } := ⟨.create, .create⟩

theorem Sound.call (h : u.Sound) (proper : c.Proper)
    (lasting : Arena.keeper.Lasting (Arena.keeper.call u c).2) :
    (Arena.keeper.call u c).2.Sound := by
  obtain ⟨held, accounts⟩ := h.accounts
  exact ⟨h.toCounted.call proper, (effect accounts c).dated h.dated proper lasting⟩

/-! ## 4. What ids tell -/

theorem Dated.state?_eq_none (h : u.Dated) (gone : id ∈ u.removed) : u.arena.state? id = none := by
  rw [h.removed] at gone
  refine Option.eq_none_iff_forall_ne_some.2 fun state found => ?_
  have now := h.slot id.index ⟨id.generation, state⟩ (Arena.state?_eq_some.1 found)
  exact absurd gone (now ▸ Nat.lt_irrefl _)

/-- **An id names a buffer** if it was issued and not yet removed. -/
theorem Dated.held_iff (h : u.Dated) :
    (id ∈ u.issued ∧ id ∉ u.removed) ↔
      ∃ state, state ≠ .vacant ∧ u.arena.state? id = some state := by
  constructor
  · rintro ⟨issued, kept⟩
    obtain ⟨slot, found, earlier | ⟨now, occupied⟩⟩ := (h.issued id).1 issued
    · exact absurd ((h.removed id).2 earlier) kept
    · exact ⟨slot.state, occupied, Arena.state?_eq_some.2 (now ▸ found)⟩
  · rintro ⟨state, occupied, found⟩
    refine ⟨(h.issued id).2 ⟨_, Arena.state?_eq_some.1 found, .inr ⟨rfl, occupied⟩⟩, fun gone => ?_⟩
    rw [h.state?_eq_none gone] at found
    cases found

/-- **A new id is another one than all before**, and its buffer is leased.  The table grows only if
no slot is vacant. -/
theorem Sound.insert (h : u.Sound) : ∃ id u', Arena.keeper.call u .insert = (.issued id, u') ∧
    id ∉ u.issued ∧ u'.arena.state? id = some .leased ∧
    (∀ other, other ≠ id → u'.arena.state? other = u.arena.state? other) ∧
    (u.arena.vacant = [] → id.index = u.arena.size ∧ u'.arena.size = u.arena.size + 1) ∧
    (u.arena.vacant ≠ [] → u.arena.vacant = id.index :: u'.arena.vacant ∧
      u'.arena.size = u.arena.size) := by
  obtain ⟨held, accounts⟩ := h.accounts
  rcases run : Arena.keeper.call u .insert with ⟨answer, u'⟩
  cases effect_of_call accounts run with
  | reused index generation vacant stack found =>
    refine ⟨⟨index, generation⟩, _, rfl, ?_, ?_, ?_, ?_, ?_⟩
    · rw [h.dated.mem_issued (by simp [found]), h.dated.slot _ _ found]
      exact Nat.lt_irrefl _
    · simp [Arena.state?, Arena.setSlot]
    · exact fun other => Arena.state?_of_ne rfl (by simp [found])
    · simp [stack]
    · exact fun _ => ⟨stack, rfl⟩
  | grown stack found =>
    refine ⟨⟨u.arena.size, 0⟩, _, rfl, ?_, ?_, ?_, ?_, ?_⟩
    · rw [h.dated.mem_issued (by simp [found]), h.dated.absent _ found]
      exact Nat.not_lt_zero _
    · simp [Arena.state?, Arena.setSlot]
    · exact fun other => Arena.state?_of_ne rfl (by simp [found])
    · exact fun _ => ⟨rfl, rfl⟩
    · exact fun some_vacant => absurd stack some_vacant

variable {source target : SlotState}

theorem Sound.transition_done (h : u.Sound) (found : u.arena.state? id = some source)
    (target : SlotState) :
    ∃ u', Arena.keeper.call u (.transition id source target) = (.done, u') ∧
      u'.arena.state? id = some target ∧
      ∀ other, other ≠ id → u'.arena.state? other = u.arena.state? other := by
  obtain ⟨held, accounts⟩ := h.accounts
  rcases run : Arena.keeper.call u (.transition id source target) with ⟨answer, u'⟩
  cases effect_of_call accounts run with
  | moved =>
    refine ⟨_, rfl, by simp [Arena.state?, Arena.setSlot], fun other => Arena.state?_of_ne rfl ?_⟩
    simp [Arena.state?_eq_some.1 found]
  | unmoved _ _ _ fault refusal =>
    rw [Arena.refusal?_eq_none_iff.2 found] at refusal
    cases refusal

theorem Sound.remove_done (h : u.Sound) (occupied : source ≠ .vacant)
    (found : u.arena.state? id = some source) :
    ∃ u', Arena.keeper.call u (.remove id source) = (.done, u') ∧ u'.arena.state? id = none ∧
      u'.arena.live + 1 = u.arena.live ∧
      (Arena.keeper.Lasting u' → ∀ other ∈ u.issued, other ≠ id →
        u'.arena.state? other = u.arena.state? other) := by
  obtain ⟨held, accounts⟩ := h.accounts
  rcases run : Arena.keeper.call u (.remove id source) with ⟨answer, u'⟩
  have e := effect_of_call accounts run
  have dated := e.dated h.dated occupied
  cases e with
  | emptied =>
    refine ⟨_, rfl, by simp [Arena.state?, Arena.setSlot], ?_,
      fun lasting other issued other_ne => ?_⟩
    · exact Nat.sub_add_cancel (accounts.live_pos found occupied)
    · by_cases gone : other ∈ u.removed
      · rw [h.dated.state?_eq_none gone,
          (dated lasting).state?_eq_none (List.mem_cons_of_mem id gone)]
      · obtain ⟨state, -, found'⟩ := h.dated.held_iff.1 ⟨issued, gone⟩
        have apart : other.index ≠ id.index := by
          intro same
          have slot := Arena.state?_eq_some.1 found'
          rw [same, Arena.state?_eq_some.1 found] at slot
          have now : id.generation = other.generation :=
            congrArg Slot.generation (Option.some.inj slot)
          exact other_ne ((BufferId.eq_iff same).2 now.symm)
        rw [Arena.state?_of_slots rfl, if_neg apart]
  | unemptied _ _ fault refusal =>
    rw [Arena.refusal?_eq_none_iff.2 found] at refusal
    cases refusal

end ArenaUse

/-! ## 5. Pools -/

theorem Row.insert_insert {α : Type} (r : Row α) (n : Nat) (a b : α) :
    (r.insert n a).insert n b = r.insert n b := by
  have all (bound n : Nat) (r : Row α) :
      insertBelow bound (insertBelow bound r n a) n b = insertBelow bound r n b := by
    induction bound generalizing r n with
    | zero => rfl
    | succ bound ih =>
      cases n with
      | zero => rfl
      | succ n => by_cases even : n % 2 = 0 <;> simp [insertBelow, even, ih]
  exact all (n + 1) n r

namespace Arena

variable {a a' a'' : Arena}

/-- **One arena becomes another one by calls** that pools can make. -/
def Becomes (a a' : Arena) : Prop := ∃ calls : List (ArenaCall BufferId), (∀ c ∈ calls, c.Proper) ∧
  ∀ u : ArenaUse Arena BufferId, u.arena = a → (Arena.keeper.callAll u calls).arena = a'

namespace Becomes

theorem refl : a.Becomes a := ⟨[], by simp, fun _ here => here⟩

theorem trans (h : a.Becomes a') (h' : a'.Becomes a'') : a.Becomes a'' := by
  obtain ⟨calls, proper, run⟩ := h
  obtain ⟨calls', proper', run'⟩ := h'
  refine ⟨calls ++ calls', by simpa [or_imp, forall_and] using ⟨proper, proper'⟩, fun u here => ?_⟩
  rw [ArenaKeeper.callAll_append]
  exact run' _ (run u here)

theorem insert : a.Becomes a.insert.2 :=
  ⟨[.insert], by simp [ArenaCall.Proper], fun _ here => here ▸ rfl⟩

variable {id : BufferId} {source target : SlotState}

theorem transition (h : a.transition id source target = .ok a') (source_ne : source ≠ .vacant)
    (target_ne : target ≠ .vacant) : a.Becomes a' := by
  refine ⟨[.transition id source target], by simp [ArenaCall.Proper, source_ne, target_ne], ?_⟩
  rintro u rfl
  simp [ArenaKeeper.callAll, ArenaKeeper.call, Arena.keeper, h]

theorem remove (h : a.remove id source = .ok a') (source_ne : source ≠ .vacant) :
    a.Becomes a' := by
  refine ⟨[.remove id source], by simp [ArenaCall.Proper, source_ne], ?_⟩
  rintro u rfl
  simp [ArenaKeeper.callAll, ArenaKeeper.call, Arena.keeper, h]

theorem ofFree (count : Nat) : Becomes {} (.ofFree count) := by
  induction count with
  | zero => exact refl
  | succ count ih =>
    have moved : (Arena.ofFree count).insert.2.transition ⟨count, 0⟩ .leased .free =
        .ok (.ofFree (count + 1)) := by
      simp [Arena.transition, Arena.refusal?, Arena.state?, Arena.insert, Arena.ofFree,
        Arena.setSlot, List.range_succ, Row.insert_insert]
    exact (ih.trans insert).trans (transition moved (by decide) (by decide))

end Becomes

end Arena

namespace Space

open Fallible (runOn)

variable {α β : Type} {id : BufferId} {source target : SlotState}

/-- **An operation of a pool changes the arena by calls**, and in no other way. -/
def ByCalls (x : SpaceAction α) : Prop := ∀ s : Space, s.arena.Becomes (runOn x s).2.arena

theorem ByCalls.pure (a : α) : ByCalls (Pure.pure a) := fun _ => .refl

theorem ByCalls.update {f : Space → Space} (kept : ∀ s, (f s).arena = s.arena) :
    ByCalls (modify f) := by
  intro s
  rw [Fallible.runOn_modify, kept]
  exact .refl

theorem ByCalls.bind {x : SpaceAction α} {f : α → SpaceAction β} (hx : ByCalls x)
    (hf : ∀ a, ByCalls (f a)) : ByCalls (x >>= f) := by
  intro s
  have first := hx s
  rw [Fallible.runOn_bind]
  generalize runOn x s = result at first ⊢
  obtain ⟨fault | a, s'⟩ := result
  · exact first
  · exact first.trans (hf a s')

theorem byCalls_move (id : BufferId) (source target : SlotState) (source_ne : source ≠ .vacant)
    (target_ne : target ≠ .vacant) : ByCalls (move id source target) := by
  intro s
  cases moved : s.arena.transition id source target with
  | error fault => simpa [move, moved] using Arena.Becomes.refl
  | ok arena => simpa [move, moved] using Arena.Becomes.transition moved source_ne target_ne

theorem byCalls_giveUp (id : BufferId) (source : SlotState) (source_ne : source ≠ .vacant) :
    ByCalls (giveUp id source) := by
  intro s
  cases emptied : s.arena.remove id source with
  | error fault => simpa [giveUp, emptied] using Arena.Becomes.refl
  | ok arena => simpa [giveUp, emptied] using Arena.Becomes.remove emptied source_ne

theorem byCalls_allocate (grants : Nat → Bool) (size : Nat) (e : Epoch) (owner : Owner) :
    ByCalls (allocate grants size e owner) := by
  intro s
  rw [runOn_allocate]
  exact .insert

theorem byCalls_makeRoom : ByCalls makeRoom := by
  intro s
  by_cases room : s.arena.live < s.options.limit
  · simpa [makeRoom, room] using Arena.Becomes.refl
  · cases smallest : s.free.takeSmallest? with
    | none => simpa [makeRoom, room, smallest] using Arena.Becomes.refl
    | some found =>
      have given := ((byCalls_giveUp found.1.id .free (by decide)).bind
        fun _ => .pure true) { s with free := found.2 }
      simpa [makeRoom, room, smallest] using given

theorem byCalls_acquire (grants : Nat → Bool) (size : Nat) (e : Epoch) (owner : Owner) :
    ByCalls (acquire grants size e owner) := by
  intro s
  by_cases oversized : s.options.maxBufferSize < size
  · simpa [acquire, oversized] using Arena.Becomes.refl
  · cases fits : s.free.takeFirst? (.atLeast size) with
    | some found =>
      have moved := ((byCalls_move found.1.id .free .leased (by decide)
        (by decide)).bind fun _ => .pure (Buffer.reinitialize found.1 e owner, Acquired.reused))
        { s with free := found.2 }
      simpa [acquire, oversized, fits] using moved
    | none =>
      have made := (byCalls_makeRoom.bind fun evicted =>
        (byCalls_allocate grants size e owner).bind fun b =>
          .pure (b, Acquired.allocated evicted)) s
      simpa [acquire, oversized, fits] using made

theorem byCalls_registerFull (b : Buffer) : ByCalls (registerFull b) :=
  (byCalls_move b.id _ _ (by decide) (by decide)).bind fun _ => .update fun _ => rfl

theorem byCalls_reclaim (buffers : List Buffer) : ByCalls (reclaim buffers) := by
  have one (b : Buffer) : ByCalls (reclaimOne b) := by
    intro s
    by_cases enough : s.free.length < s.options.cacheCount
    · have kept := ((byCalls_move b.id .leased .free (by decide)
        (by decide)).bind fun _ => ByCalls.bind (.update (f := fun s =>
          { s with free := s.free.push <| Buffer.reinitialize b b.epoch .global }) fun _ => rfl)
            fun _ => .pure false) s
      simpa [reclaimOne, enough] using kept
    · have given := ((byCalls_giveUp b.id .leased (by decide)).bind
        fun _ => .pure true) s
      simpa [reclaimOne, enough] using given
  induction buffers with
  | nil => exact .pure 0
  | cons b rest ih => exact (one b).bind fun _ => ih.bind fun _ => .pure _

theorem byCalls_takeFullWhere (test : Buffer → Bool) : ByCalls (takeFullWhere test) := by
  have all (taken : List Buffer) : ByCalls (leaseFull taken) := by
    induction taken with
    | nil => exact .pure ()
    | cons b rest ih => exact (byCalls_move b.id _ _ (by decide) (by decide)).bind fun _ => ih
  intro s
  have taken := ((all (s.full.filter test).reverse).bind
    fun _ => .pure (s.full.filter test).reverse)
    { s with full := s.full.filter fun b => !test b }
  simpa [takeFullWhere] using taken

/-- **The arena of a pool is one in use**, whatever the pool was asked: it was made by calls that
name states of buffers. -/
theorem Used.exists_calls {kind : BufferKind} {o : SpaceOptions} {s : Space} (h : Used kind o s) :
    ∃ calls : List (ArenaCall BufferId), (∀ c ∈ calls, c.Proper) ∧
      (Arena.keeper.callAll { arena := {} } calls).arena = s.arena := by
  have becomes : Arena.Becomes {} s.arena := by
    induction h with
    | create => exact .ofFree o.preallocCount
    | call _ c ih =>
      refine ih.trans ?_
      cases c with
      | acquire grants size epoch owner => exact byCalls_acquire grants size epoch owner _
      | registerFull b => exact byCalls_registerFull b _
      | reclaim buffers => exact byCalls_reclaim buffers _
      | takeFull epoch => exact byCalls_takeFullWhere _ _
      | takeAllFull => exact byCalls_takeFullWhere _ _
  obtain ⟨calls, proper, run⟩ := becomes
  exact ⟨calls, proper, run _ rfl⟩

end Space

end TraceRecorder
