/-
# Slots that account for buffers

An arena is right about a list of buffers if each of them has a slot of its own that says where it
is held, and if no other slot is occupied.  `Arena.Accounts` is this relation; it does not depend
on the order of the list.  Each operation of the arena changes the list by one member:

* `Accounts.insert`: a new id joins the list, and it shares no slot with any other;
* `Accounts.transition`: a member changes its state, and the transition is never refused;
* `Accounts.remove`: a member leaves the list, and the removal is never refused.

The relation also says which slots are vacant, so that the stack of vacant slots can be trusted
when the next id is taken from it.
-/
import TraceRecorder.Pool.Arena

namespace TraceRecorder

/-- A buffer's id, and the state that its slot should be in. -/
abbrev Holding := BufferId × SlotState

/-! ## 1. Occupied slots -/

/-- **The slots show a list of buffers**: its members, in the states given, and nothing else. -/
structure Shows (slots : Row Slot) (held : List Holding) : Prop where
  /-- No two buffers share a slot. -/
  distinct : (held.map fun h => h.1.index).Nodup
  slot : ∀ h ∈ held, slots.find? h.1.index = some ⟨h.1.generation, h.2⟩
  occupied : ∀ h ∈ held, h.2 ≠ .vacant
  complete : ∀ index slot, slots.find? index = some slot → slot.state ≠ .vacant →
    ((⟨index, slot.generation⟩, slot.state) : Holding) ∈ held

namespace Shows

variable {slots : Row Slot} {held held' : List Holding} {id : BufferId} {state : SlotState}

theorem perm (h : Shows slots held) (hp : held.Perm held') : Shows slots held' where
  distinct := (hp.map _).nodup_iff.1 h.distinct
  slot x hx := h.slot x (hp.mem_iff.2 hx)
  occupied x hx := h.occupied x (hp.mem_iff.2 hx)
  complete index slot hs hv := hp.mem_iff.1 (h.complete index slot hs hv)

theorem index_ne_of_mem_tail (h : Shows slots ((id, state) :: held)) :
    ∀ x ∈ held, x.1.index ≠ id.index := by
  intro x hx heq
  have hd := (List.nodup_cons.1 h.distinct).1
  exact hd (List.mem_map.2 ⟨x, hx, heq⟩)

theorem index_ne_of_vacant (h : Shows slots held) {index : Nat}
    (hv : ∀ slot, slots.find? index = some slot → slot.state = .vacant) :
    ∀ x ∈ held, x.1.index ≠ index := by
  intro x hx heq
  have hs := h.slot x hx
  rw [heq] at hs
  exact h.occupied x hx (hv _ hs)

/-- A slot that belongs to no member can be given to a new one. -/
theorem put (h : Shows slots held) {index : Nat} (generation : UInt32)
    (hf : ∀ x ∈ held, x.1.index ≠ index) (hs : state ≠ .vacant) :
    Shows (slots.insert index ⟨generation, state⟩) ((⟨index, generation⟩, state) :: held) where
  distinct := by
    refine List.nodup_cons.2 ⟨?_, h.distinct⟩
    intro hm
    obtain ⟨x, hx, heq⟩ := List.mem_map.1 hm
    exact hf x hx heq
  slot := by
    intro x hx
    rcases List.mem_cons.1 hx with rfl | hx
    · exact Row.find?_insert_self _ _ _
    · rw [Row.find?_insert_of_ne _ (hf x hx)]
      exact h.slot x hx
  occupied := by
    intro x hx
    rcases List.mem_cons.1 hx with rfl | hx
    · exact hs
    · exact h.occupied x hx
  complete := by
    intro i slot hslot hv
    by_cases hi : i = index
    · subst hi
      rw [Row.find?_insert_self] at hslot
      cases hslot
      exact List.mem_cons_self
    · rw [Row.find?_insert_of_ne _ hi] at hslot
      exact List.mem_cons_of_mem _ (h.complete i slot hslot hv)

/-- The slot of a member becomes vacant when the member leaves. -/
theorem drop (h : Shows slots ((id, state) :: held)) (generation : UInt32) :
    Shows (slots.insert id.index ⟨generation, .vacant⟩) held where
  distinct := (List.nodup_cons.1 h.distinct).2
  slot := by
    intro x hx
    rw [Row.find?_insert_of_ne _ (h.index_ne_of_mem_tail x hx)]
    exact h.slot x (List.mem_cons_of_mem _ hx)
  occupied x hx := h.occupied x (List.mem_cons_of_mem _ hx)
  complete := by
    intro index slot hslot hv
    by_cases hi : index = id.index
    · subst hi
      rw [Row.find?_insert_self] at hslot
      cases hslot
      exact absurd rfl hv
    · rw [Row.find?_insert_of_ne _ hi] at hslot
      rcases List.mem_cons.1 (h.complete index slot hslot hv) with heq | hm
      · exact absurd (congrArg (fun x : Holding => x.1.index) heq) hi
      · exact hm

/-- The slot of a member changes its state with it. -/
theorem change (h : Shows slots ((id, state) :: held)) {target : SlotState}
    (ht : target ≠ .vacant) :
    Shows (slots.insert id.index ⟨id.generation, target⟩) ((id, target) :: held) where
  distinct := h.distinct
  slot := by
    intro x hx
    rcases List.mem_cons.1 hx with rfl | hx
    · exact Row.find?_insert_self _ _ _
    · rw [Row.find?_insert_of_ne _ (h.index_ne_of_mem_tail x hx)]
      exact h.slot x (List.mem_cons_of_mem _ hx)
  occupied := by
    intro x hx
    rcases List.mem_cons.1 hx with rfl | hx
    · exact ht
    · exact h.occupied x (List.mem_cons_of_mem _ hx)
  complete := by
    intro index slot hslot hv
    by_cases hi : index = id.index
    · subst hi
      rw [Row.find?_insert_self] at hslot
      cases hslot
      exact List.mem_cons_self
    · rw [Row.find?_insert_of_ne _ hi] at hslot
      rcases List.mem_cons.1 (h.complete index slot hslot hv) with heq | hm
      · exact absurd (congrArg (fun x : Holding => x.1.index) heq) hi
      · exact List.mem_cons_of_mem _ hm

end Shows

/-! ## 2. Arenas -/

namespace Arena

/-- **The arena accounts for some buffers.** -/
structure Accounts (a : Arena) (held : List Holding) : Prop where
  shows : Shows a.slots held
  live : a.live = held.length
  stack : a.vacant.Nodup
  vacant : ∀ index, index ∈ a.vacant ↔
    ∃ generation, a.slots.find? index = some ⟨generation, .vacant⟩
  size : ∀ index, index < a.size ↔ (a.slots.find? index).isSome = true

theorem live_insert (a : Arena) : a.insert.2.live = a.live + 1 := by
  unfold insert
  split <;> rfl

/-- **The slot that was emptied last is taken next**, and the id that named it is stale. -/
theorem insert_of_remove {a a' : Arena} {id : BufferId} {source : SlotState}
    (h : a.remove id source = .ok a') :
    a'.insert.1 = ⟨id.index, id.generation + 1⟩ ∧ a'.insert.2.state? id = none := by
  unfold remove at h
  split at h
  · cases h
  · cases h
    have hnext : id.generation + 1 ≠ id.generation := by simp
    simp [insert, setSlot, state?, hnext]

namespace Accounts

variable {a : Arena} {held held' : List Holding} {id : BufferId} {source : SlotState}

theorem perm (h : a.Accounts held) (hp : held.Perm held') : a.Accounts held' :=
  { h with shows := h.shows.perm hp, live := h.live.trans hp.length_eq }

theorem state?_eq (h : a.Accounts held) {x : Holding} (hx : x ∈ held) :
    a.state? x.1 = some x.2 := by
  rw [state?, h.shows.slot x hx]
  exact if_pos rfl

theorem refusal?_eq_none (h : a.Accounts ((id, source) :: held)) :
    a.refusal? id source = none := by
  rw [refusal?, h.state?_eq List.mem_cons_self]
  exact if_pos rfl

/-- **The buffers are exactly those of the occupied slots.** -/
theorem state?_eq_some_iff (h : a.Accounts held) {state : SlotState} (hs : state ≠ .vacant) :
    a.state? id = some state ↔ (id, state) ∈ held := by
  constructor
  · intro hst
    obtain ⟨slot, hf, hg⟩ := Option.bind_eq_some_iff.1 hst
    split at hg
    · rename_i hgen
      cases hg
      have hm := h.shows.complete id.index slot hf hs
      rwa [hgen] at hm
    · cases hg
  · exact h.state?_eq

/-- **A new id joins**, and it shares no slot with any other. -/
theorem insert (h : a.Accounts held) :
    a.insert.2.Accounts ((a.insert.1, .leased) :: held) := by
  unfold Arena.insert
  split
  · rename_i index vacant hvac
    have hmem : index ∈ a.vacant := by rw [hvac]; exact List.mem_cons_self
    have hstack := h.stack
    rw [hvac] at hstack
    obtain ⟨hnot, hstack⟩ := List.nodup_cons.1 hstack
    obtain ⟨generation, hslot⟩ := (h.vacant index).1 hmem
    have hfree : ∀ x ∈ held, x.1.index ≠ index := by
      refine h.shows.index_ne_of_vacant ?_
      intro slot hs
      rw [hslot] at hs
      cases hs
      rfl
    refine ⟨h.shows.put _ hfree (by decide), by simp [h.live], hstack, ?_, ?_⟩
    · intro i
      by_cases hi : i = index
      · subst hi
        simp [setSlot, hnot]
      · have hv := h.vacant i
        rw [hvac, List.mem_cons, or_iff_right hi] at hv
        simpa only [setSlot, Row.find?_insert_of_ne _ hi] using hv
    · intro i
      by_cases hi : i = index
      · subst hi
        have := (h.size i).2 (by rw [hslot]; rfl)
        simp [setSlot, this]
      · simpa only [setSlot, Row.find?_insert_of_ne _ hi] using h.size i
  · rename_i hvac
    have hnone : a.slots.find? a.size = none := by
      have hn : ¬ (a.slots.find? a.size).isSome = true :=
        fun hsome => Nat.lt_irrefl _ ((h.size a.size).2 hsome)
      simpa using hn
    have hfree : ∀ x ∈ held, x.1.index ≠ a.size := by
      refine h.shows.index_ne_of_vacant ?_
      intro slot hs
      rw [hnone] at hs
      cases hs
    refine ⟨h.shows.put _ hfree (by decide), by simp [h.live], h.stack, ?_, ?_⟩
    · intro i
      by_cases hi : i = a.size
      · subst hi
        have hv := h.vacant a.size
        rw [hnone] at hv
        simp [setSlot, hv]
      · simpa only [setSlot, Row.find?_insert_of_ne _ hi] using h.vacant i
    · intro i
      by_cases hi : i = a.size
      · subst hi
        simp [setSlot]
      · simp only [setSlot, Row.find?_insert_of_ne _ hi, ← h.size i]
        omega

/-- **A member changes its state.** -/
theorem transition (h : a.Accounts ((id, source) :: held)) {target : SlotState}
    (ht : target ≠ .vacant) :
    ∃ a', a.transition id source target = .ok a' ∧ a'.Accounts ((id, target) :: held) := by
  have hslot := h.shows.slot (id, source) List.mem_cons_self
  have hs := h.shows.occupied (id, source) List.mem_cons_self
  refine ⟨a.setSlot id.index ⟨id.generation, target⟩, ?_, h.shows.change ht, h.live, h.stack, ?_,
    ?_⟩
  · rw [Arena.transition, h.refusal?_eq_none]
  · intro i
    by_cases hi : i = id.index
    · subst hi
      rw [show (a.setSlot id.index ⟨id.generation, target⟩).vacant = a.vacant from rfl,
        h.vacant id.index, hslot]
      simp [setSlot, hs, ht]
    · simpa only [setSlot, Row.find?_insert_of_ne _ hi] using h.vacant i
  · intro i
    by_cases hi : i = id.index
    · subst hi
      have := (h.size id.index).2 (by rw [hslot]; rfl)
      simp [setSlot, this]
    · simpa only [setSlot, Row.find?_insert_of_ne _ hi] using h.size i

/-- **A member leaves.** -/
theorem remove (h : a.Accounts ((id, source) :: held)) :
    ∃ a', a.remove id source = .ok a' ∧ a'.Accounts held ∧ a'.live + 1 = a.live := by
  have hslot := h.shows.slot (id, source) List.mem_cons_self
  have hs := h.shows.occupied (id, source) List.mem_cons_self
  have hlive : a.live = held.length + 1 := h.live
  have hnot : id.index ∉ a.vacant := by
    rw [h.vacant id.index, hslot]
    rintro ⟨generation, heq⟩
    cases heq
    exact hs rfl
  refine ⟨_, by rw [Arena.remove, h.refusal?_eq_none], ⟨h.shows.drop _, ?_, ?_, ?_, ?_⟩, ?_⟩
  · simp [hlive]
  · exact List.nodup_cons.2 ⟨hnot, h.stack⟩
  · intro i
    by_cases hi : i = id.index
    · subst hi
      simp [setSlot]
    · have hv := h.vacant i
      rw [List.mem_cons, or_iff_right hi]
      simpa only [setSlot, Row.find?_insert_of_ne _ hi] using hv
  · intro i
    by_cases hi : i = id.index
    · subst hi
      have := (h.size id.index).2 (by rw [hslot]; rfl)
      simp [setSlot, this]
    · simpa only [setSlot, Row.find?_insert_of_ne _ hi] using h.size i
  · simp [hlive]

end Accounts

/-! ## 3. The first buffers -/

theorem find?_foldl_insert (l : List Nat) (slots : Row Slot) (slot : Slot) (index : Nat) :
    (l.foldl (fun s i => s.insert i slot) slots).find? index =
      if index ∈ l then some slot else slots.find? index := by
  induction l generalizing slots with
  | nil => simp
  | cons i l ih =>
    rw [List.foldl_cons, ih]
    by_cases hm : index ∈ l
    · simp [hm]
    · by_cases hi : index = i
      · subst hi
        simp [hm]
      · simp [hm, hi, Row.find?_insert_of_ne _ hi]

theorem find?_ofFree (count index : Nat) :
    (ofFree count).slots.find? index = if index < count then some ⟨0, .free⟩ else none := by
  simp [ofFree, find?_foldl_insert]

/-- An arena of free buffers accounts for them. -/
theorem accounts_ofFree (count : Nat) :
    (ofFree count).Accounts
      ((List.range count).map fun index => (⟨index, 0⟩, .free)) where
  shows := by
    refine ⟨?_, ?_, ?_, ?_⟩
    · simpa [List.map_map, Function.comp_def] using List.nodup_range
    · intro x hx
      obtain ⟨index, hi, rfl⟩ := List.mem_map.1 hx
      rw [find?_ofFree, if_pos (List.mem_range.1 hi)]
    · intro x hx
      obtain ⟨index, hi, rfl⟩ := List.mem_map.1 hx
      exact SlotState.noConfusion
    · intro index slot hs hv
      rw [find?_ofFree] at hs
      split at hs
      · rename_i hi
        cases hs
        exact List.mem_map.2 ⟨index, List.mem_range.2 hi, rfl⟩
      · cases hs
  live := by simp [ofFree]
  stack := List.nodup_nil
  vacant := by
    intro index
    rw [find?_ofFree]
    constructor
    · intro hm
      cases hm
    · rintro ⟨generation, heq⟩
      split at heq <;> cases heq
  size := by
    intro index
    rw [find?_ofFree]
    by_cases hi : index < count <;> simp [hi, ofFree]

end Arena

end TraceRecorder
