/-
# Where buffers in bindings get lost

Operations on bindings take two critical sections, and what comes in between matters in one case
only: a thread ends while one of its writers has found the thread's cell and not yet put its buffer
there.  The cell is struck off the table and emptied, and then the buffer goes into a cell that
nobody gets at any more.  Its committed bytes reach no sink, and its slot stays leased.

* `Reachable.lost_iff` says which buffers are lost behind a step, for any step in any system.
* `Reachable.none_lost`: while threads end only when their writers are done, none is.
  `Reachable.exists_lost`: otherwise any buffer can be.
* `Reachable.buffers_perm`: no buffer is in two places, and none comes or goes but by leases and
  hand-offs.  So a lost buffer is still there, in its cell.
* `Move.store_after_find`, `Move.take_after_reach`, `Move.take_after_unbind`: without anyone in
  between, two sections are the one step that the pool makes.
-/
import TraceRecorder.Pool.Bindings
import TraceRecorder.Proofs.OrderedDict
import Mathlib.Tactic.Tauto

namespace TraceRecorder

namespace Bindings

variable {s s' : Store} {p p' : Phase} {a : Act} {thread : ThreadId} {cell : Nat}

/-! ## 1. Table and cells -/

namespace Store

theorem contents_put (s : Store) (cell other : Nat) (b : Option Buffer)
    (bound : cell < s.cells.length) :
    (s.put cell b).contents other = if other = cell then b else s.contents other := by
  unfold contents put
  by_cases same : other = cell
  · subst same
    simp [bound]
  · simp [same, Ne.symm same]

theorem contents_touch (s : Store) (thread : ThreadId) (cell : Nat) :
    (s.touch thread).contents cell = s.contents cell := by
  unfold touch contents
  split
  · rfl
  · rw [List.getElem?_append]
    split
    case isTrue => rfl
    case isFalse behind =>
      rw [List.getElem?_eq_none (Nat.le_of_not_lt behind)]
      cases cell - s.cells.length <;> rfl

theorem lt_of_contents {b : Buffer} (here : s.contents cell = some b) : cell < s.cells.length := by
  refine Nat.lt_of_not_le fun behind => ?_
  simp [contents, List.getElem?_eq_none behind] at here

theorem find?_touch (s : Store) (thread other : ThreadId) :
    Dict.find? (s.touch thread).table other =
      if other = thread then some (s.cellOf thread) else Dict.find? s.table other := by
  unfold touch cellOf
  by_cases same : other = thread
  · subst same
    cases found : Dict.find? s.table other <;> simp [found]
  · cases found : Dict.find? s.table thread
    · simp [same, Dict.find?_insert_of_ne]
    · simp [same]

theorem find?_strike (s : Store) (thread other : ThreadId) :
    Dict.find? (s.strike thread).table other =
      if other = thread then none else Dict.find? s.table other := by
  by_cases same : other = thread
  · rw [if_pos same, same, strike, Dict.find?_erase_self]
  · rw [if_neg same, strike, Dict.find?_erase_of_ne _ same]

/-- The table names the cells that it named before, and a new one at most. -/
theorem exists_find?_touch {s : Store} {thread : ThreadId} {cell : Nat}
    (bound : cell < s.cells.length) :
    (∃ other, Dict.find? (s.touch thread).table other = some cell) ↔
      ∃ other, Dict.find? s.table other = some cell := by
  constructor
  · rintro ⟨other, found⟩
    rw [find?_touch] at found
    split at found
    · cases mine : Dict.find? s.table thread with
      | none =>
        rw [cellOf, mine] at found
        cases found
        exact absurd bound (Nat.lt_irrefl _)
      | some here =>
        rw [cellOf, mine] at found
        exact ⟨thread, mine.trans found⟩
    · exact ⟨other, found⟩
  · rintro ⟨other, found⟩
    refine ⟨other, ?_⟩
    rw [find?_touch]
    split
    case isTrue same => rw [cellOf, ← same, found, Option.getD_some]
    case isFalse => exact found

/-- **Each thread has a cell of its own**, and there is such a cell. -/
structure Sound (s : Store) : Prop where
  ordered : Dict.Ordered s.table
  bound : ∀ thread cell, Dict.find? s.table thread = some cell → cell < s.cells.length
  apart : ∀ thread other cell, Dict.find? s.table thread = some cell →
    Dict.find? s.table other = some cell → thread = other

namespace Sound

theorem create : Sound {} := ⟨.nil, nofun, nofun⟩

theorem put (h : s.Sound) (cell : Nat) (b : Option Buffer) : (s.put cell b).Sound where
  ordered := h.ordered
  bound thread cell' found := by
    rw [Store.put, List.length_set]
    exact h.bound thread cell' found
  apart := h.apart

theorem strike (h : s.Sound) (thread : ThreadId) : (s.strike thread).Sound where
  ordered := h.ordered.erase thread
  bound other cell found := by
    rw [find?_strike] at found
    split at found
    · cases found
    · exact h.bound other cell found
  apart other other' cell found found' := by
    rw [find?_strike] at found found'
    split at found
    · cases found
    · split at found'
      · cases found'
      · exact h.apart other other' cell found found'

theorem cellOf_lt (h : s.Sound) (thread : ThreadId) :
    s.cellOf thread < (s.touch thread).cells.length := by
  unfold cellOf touch
  cases found : Dict.find? s.table thread with
  | none => simp
  | some cell => simpa using h.bound thread cell found

theorem length_touch (s : Store) (thread : ThreadId) :
    s.cells.length ≤ (s.touch thread).cells.length := by
  unfold touch
  split <;> simp

theorem touch (h : s.Sound) (thread : ThreadId) : (s.touch thread).Sound := by
  -- a new cell is the last one, and is no other thread's
  have new : ∀ other, other ≠ thread → Dict.find? s.table other ≠ some (s.cellOf thread) := by
    intro other differ found
    unfold cellOf at found
    cases mine : Dict.find? s.table thread with
    | none =>
      rw [mine] at found
      exact Nat.lt_irrefl _ (h.bound other _ found)
    | some cell =>
      rw [mine] at found
      exact differ (h.apart other thread cell found mine)
  refine ⟨?_, fun other cell found => ?_, fun other other' cell found found' => ?_⟩
  · unfold Store.touch
    split
    · exact h.ordered
    · exact h.ordered.insert _ _
  · rw [find?_touch] at found
    split at found
    · cases found
      exact h.cellOf_lt thread
    · exact Nat.lt_of_lt_of_le (h.bound other cell found) (length_touch s thread)
  · rw [find?_touch] at found found'
    split at found <;> split at found'
    · simp_all
    · cases found
      exact absurd found' (new other' ‹_›)
    · cases found'
      exact absurd found (new other ‹_›)
    · exact h.apart other other' cell found found'

end Sound

end Store

/-! ## 2. What is lost -/

@[simp] theorem Phase.taking_ne_having (cell : Nat) (b : Option Buffer) :
    taking cell ≠ having b := by
  cases b <;> simp [having]

def Phase.cell? : Phase → Option Nat
  | storing cell _ | taking cell => some cell
  | _ => none

@[simp] theorem Phase.cell?_having (b : Option Buffer) : (having b).cell? = none := by
  cases b <;> rfl

/-- **Cells are found where there are some.** -/
structure System.Sound (s : System) : Prop where
  store : s.store.Sound
  clients : ∀ p ∈ s.clients, ∀ cell, p.cell? = some cell → cell < s.store.cells.length

/-- A step leaves the cells, and one client has found one more at most. -/
theorem Move.sound (m : Move s p a s' p') (h : s.Sound)
    (mine : ∀ cell, p.cell? = some cell → cell < s.cells.length) :
    s'.Sound ∧ s.cells.length ≤ s'.cells.length ∧
      ∀ cell, p'.cell? = some cell → cell < s'.cells.length := by
  cases m with
  | lease | handOff | unbound => exact ⟨h, Nat.le_refl _, nofun⟩
  | find b thread | reach thread =>
    refine ⟨h.touch thread, Store.Sound.length_touch _ thread, ?_⟩
    rintro cell ⟨⟩
    exact h.cellOf_lt thread
  | store b cell =>
    exact ⟨h.put cell (some b), Nat.le_of_eq List.length_set.symm, by simp⟩
  | unbind thread cell found =>
    refine ⟨h.strike thread, Nat.le_refl _, ?_⟩
    rintro cell ⟨⟩
    exact h.bound thread cell found
  | take cell => exact ⟨h.put cell none, Nat.le_of_eq List.length_set.symm, by simp⟩

theorem Step.exists_move {s s' : System} (m : Step s a s') :
    ∃ p p', p ∈ s.clients ∧ Move s.store p a s'.store p' ∧
      ∀ q ∈ s'.clients, q = p' ∨ q ∈ s.clients := by
  obtain ⟨before, after, m⟩ := m
  refine ⟨_, _, by simp, m, fun q member => ?_⟩
  simp only [List.mem_append, List.mem_cons] at member ⊢
  tauto

namespace System

variable {s s' : System}

theorem Sound.step (h : s.Sound) (m : Step s a s') : s'.Sound := by
  obtain ⟨p, p', member, move, others⟩ := m.exists_move
  obtain ⟨store, more, mine⟩ := move.sound h.store (h.clients p member)
  refine ⟨store, fun q here cell found => ?_⟩
  rcases others q here with rfl | before_step
  · exact mine cell found
  · exact Nat.lt_of_lt_of_le (h.clients q before_step cell found) more

end System

/-- Steps do not change who gets at a cell with a buffer, but for the one that empties it. -/
theorem Move.reached_iff (m : Move s p a s' p') (before after : List Phase)
    (bound : cell < s.cells.length) (kept : a ≠ .take cell) :
    System.Reached ⟨s', before ++ p' :: after⟩ cell ↔
      System.Reached ⟨s, before ++ p :: after⟩ cell := by
  unfold System.Reached
  cases m with
  | lease | handOff | unbound | store => simp [Store.put]
  | find b thread => simp [Store.exists_find?_touch bound]
  | reach thread =>
    have mine : cell = s.cellOf thread → ∃ other, Dict.find? s.table other = some cell := by
      rintro rfl
      exact (Store.exists_find?_touch bound).1 ⟨thread, by rw [Store.find?_touch, if_pos rfl]⟩
    simp only [Store.exists_find?_touch bound, List.mem_append, List.mem_cons, reduceCtorEq,
      Phase.taking.injEq, false_or]
    tauto
  | unbind thread struck found =>
    by_cases mine : cell = struck
    · subst mine
      exact iff_of_true (.inr (by simp)) (.inl ⟨thread, found⟩)
    · have others : (∃ other, Dict.find? (s.strike thread).table other = some cell) ↔
          ∃ other, Dict.find? s.table other = some cell := by
        refine exists_congr fun other => ?_
        rw [Store.find?_strike]
        split
        case isTrue same =>
          subst same
          simp [found, Ne.symm mine]
        case isFalse => rfl
      simp [others, mine]
  | take taken =>
    have differ : cell ≠ taken := fun same => kept (same ▸ rfl)
    simp [Store.put, differ]

theorem Reachable.sound {allowed : System → Act → Prop} {s : System} (r : Reachable allowed s) :
    s.Sound := by
  induction r with
  | start clients =>
    refine ⟨.create, fun p member cell found => ?_⟩
    rw [List.eq_of_mem_replicate member] at found
    cases found
  | step _ m _ ih => exact ih.step m

/-- What is in a cell behind a step that found something there. -/
def Act.leaves (a : Act) (cell : Nat) (found : Option Buffer) : Option Buffer :=
  match a with
  | store stored b => if cell = stored then some b else found
  | take taken => if cell = taken then none else found
  | _ => found

theorem Act.leaves_of_ne {found : Option Buffer} (none_taken : a ≠ .take cell)
    (none_stored : ∀ b, a ≠ .store cell b) : a.leaves cell found = found := by
  unfold leaves
  split
  · refine if_neg ?_
    rintro rfl
    exact none_stored _ rfl
  · refine if_neg ?_
    rintro rfl
    exact none_taken rfl
  · rfl

theorem Move.contents (m : Move s p a s' p')
    (mine : ∀ cell, p.cell? = some cell → cell < s.cells.length) (cell : Nat) :
    s'.contents cell = a.leaves cell (s.contents cell) := by
  cases m with
  | lease | handOff | unbound | unbind => rfl
  | find b thread | reach thread => exact Store.contents_touch _ thread cell
  | store b stored => exact Store.contents_put _ _ _ _ (mine stored rfl)
  | take taken => exact Store.contents_put _ _ _ _ (mine taken rfl)

/-- What a step loses, by what it does. -/
theorem Move.lost_iff (m : Move s p a s' p') (before after : List Phase)
    (mine : ∀ cell, p.cell? = some cell → cell < s.cells.length) (cell : Nat) (b : Buffer) :
    System.Lost ⟨s', before ++ p' :: after⟩ cell b ↔
      (a = .store cell b ∧ ¬ System.Reached ⟨s, before ++ p :: after⟩ cell) ∨
        (System.Lost ⟨s, before ++ p :: after⟩ cell b ∧ ∀ b', a ≠ .store cell b') := by
  have reached (bound : cell < s.cells.length) (kept : a ≠ .take cell) :=
    m.reached_iff before after bound kept
  unfold System.Lost
  dsimp only
  rw [m.contents mine]
  by_cases taken : a = .take cell
  · -- nothing is left in the cell, and it was not lost while it was about to be emptied
    subst taken
    cases m
    simp [Act.leaves, System.Reached]
  · by_cases stored : ∃ b', a = .store cell b'
    · obtain ⟨b', rfl⟩ := stored
      have bound : cell < s.cells.length := by
        cases m
        exact mine cell rfl
      simp [Act.leaves, reached bound taken]
    · have none_stored : ∀ b', a ≠ .store cell b' := fun b' equal => stored ⟨b', equal⟩
      rw [Act.leaves_of_ne taken none_stored]
      constructor
      · rintro ⟨here, gone⟩
        rw [reached (Store.lt_of_contents here) taken] at gone
        exact .inr ⟨⟨here, gone⟩, none_stored⟩
      · rintro (⟨equal, -⟩ | ⟨⟨here, gone⟩, -⟩)
        · exact absurd equal (none_stored b)
        · rw [← reached (Store.lt_of_contents here) taken] at gone
          exact ⟨here, gone⟩

/-- **What a step loses.**  A buffer is lost behind a step just if the step puts it into a cell that
nobody gets at, or if it was lost before and the step puts no other one in its place. -/
theorem Reachable.lost_iff {allowed : System → Act → Prop} {s s' : System}
    (r : Reachable allowed s) (m : Step s a s') (cell : Nat) (b : Buffer) :
    s'.Lost cell b ↔ (a = .store cell b ∧ ¬ s.Reached cell) ∨
      (s.Lost cell b ∧ ∀ b', a ≠ .store cell b') := by
  have sound := r.sound
  obtain ⟨before, after, m⟩ := m
  exact m.lost_iff before after
    (sound.clients _ (List.mem_append_right _ List.mem_cons_self)) cell b

theorem Move.named (m : Move s p a s' p') (bound : cell < s.cells.length)
    (kept : ∀ thread, a = .unbind thread → Dict.find? s.table thread ≠ some cell)
    (found : Dict.find? s.table thread = some cell) :
    ∃ other, Dict.find? s'.table other = some cell := by
  cases m with
  | lease | handOff | unbound | store | take => exact ⟨thread, found⟩
  | find b looked | reach looked =>
    exact (Store.exists_find?_touch bound).2 ⟨thread, found⟩
  | unbind ended struck =>
    refine ⟨thread, ?_⟩
    have differ : thread ≠ ended := fun same => kept ended rfl (same ▸ found)
    rw [Store.find?_strike, if_neg differ, found]

theorem Move.named_of_storing (m : Move s p a s' p') {b : Buffer} (mine : p' = .storing cell b) :
    ∃ thread, Dict.find? s'.table thread = some cell := by
  cases m with
  | find b thread =>
    cases mine
    exact ⟨thread, by rw [Store.find?_touch, if_pos rfl]⟩
  | store b stored | take stored =>
    cases here : s.contents stored <;> simp [Phase.having, here] at mine
  | lease | handOff | reach | unbind | unbound => cases mine

/-- While threads end only when their writers are done, the table names all cells that a writer is
about to put its buffer into. -/
theorem Reachable.named {s : System} (r : Reachable System.Settled s) {cell : Nat} {b : Buffer}
    (storing : Phase.storing cell b ∈ s.clients) :
    ∃ thread, Dict.find? s.store.table thread = some cell := by
  induction r with
  | start clients => cases List.eq_of_mem_replicate storing
  | @step s s' a r m settled ih =>
    obtain ⟨p, p', -, move, others⟩ := m.exists_move
    rcases others _ storing with mine | before_step
    · exact move.named_of_storing mine.symm
    · obtain ⟨thread, found⟩ := ih before_step
      refine move.named (r.sound.clients _ before_step cell rfl) ?_ found
      rintro ended rfl struck
      exact settled ended cell b rfl struck before_step

/-- **While threads end only when their writers are done, nothing is lost.** -/
theorem Reachable.none_lost {s : System} (r : Reachable System.Settled s) (cell : Nat)
    (b : Buffer) : ¬ s.Lost cell b := by
  induction r with
  | start clients =>
    rintro ⟨here, -⟩
    simp [Store.contents] at here
  | step r m settled ih =>
    rw [r.lost_iff m]
    rintro (⟨rfl, gone⟩ | ⟨lost, -⟩)
    · obtain ⟨before, after, m⟩ := m
      cases m
      exact gone (.inl (r.named (List.mem_append_right _ List.mem_cons_self)))
    · exact ih lost

/-- **Otherwise any buffer can get lost.**  Its writer has found the cell of the thread.  Another
client ends the thread, finds nothing in the cell yet, and is done.  Then the writer puts its buffer
there. -/
theorem Reachable.exists_lost (b : Buffer) (thread : ThreadId) :
    ∃ s, Reachable (fun _ _ => True) s ∧ s.Lost 0 b := by
  have start : Reachable (fun _ _ => True) ⟨{}, [.idle, .idle]⟩ := .start 2
  have leased := start.step (.move [] [.idle] (.lease {} b)) trivial
  have found := leased.step (.move [] [.idle] (.find {} b thread)) trivial
  have ended := found.step (.move [_] [] (.unbind _ thread 0 (by simp [Store.touch, Dict.find?,
    Dict.insert]))) trivial
  have emptied := ended.step (.move [_] [] (.take _ 0)) trivial
  have stored := emptied.step (.move [] [_] (.store _ b _)) trivial
  refine ⟨_, stored, rfl, ?_⟩
  simp [System.Reached, Store.put, Store.strike, Store.touch, Store.contents, Store.cellOf,
    Dict.find?, Dict.insert, Dict.erase, Phase.having]

/-! ## 3. No buffer is in two places -/

def Phase.buffer? : Phase → Option Buffer
  | holding b | storing _ b => some b
  | _ => none

@[simp] theorem Phase.buffer?_having (b : Option Buffer) : (having b).buffer? = b := by
  cases b <;> rfl

/-- All buffers on the hands of clients or in cells. -/
def System.buffers (s : System) : List Buffer :=
  s.clients.filterMap Phase.buffer? ++ s.store.cells.filterMap id

def Act.leased : Act → List Buffer
  | lease b => [b]
  | _ => []

/-- What a step gives back to the pool. -/
def Act.returned : Act → List Buffer
  | handOff b => [b]
  | _ => []

/-- What stands at a place is exchanged for something else. -/
theorem perm_filterMap_set {α : Type} (cells : List (Option α)) {cell : Nat}
    (bound : cell < cells.length) (new : Option α) :
    (cells[cell]?.join.toList ++ (cells.set cell new).filterMap id).Perm
      (new.toList ++ cells.filterMap id) := by
  induction cells generalizing cell with
  | nil => cases bound
  | cons old rest ih =>
    cases cell with
    | zero => cases old <;> cases new <;> simp [List.Perm.swap]
    | succ cell =>
      have exchanged := ih (Nat.lt_of_succ_lt_succ bound)
      cases old with
      | none => simpa using exchanged
      | some b =>
        simp only [List.getElem?_cons_succ, List.set_cons_succ, List.filterMap_cons, id_eq]
        exact List.perm_middle.trans ((exchanged.cons b).trans List.perm_middle.symm)

theorem Store.filterMap_cells_touch (s : Store) (thread : ThreadId) :
    (s.touch thread).cells.filterMap id = s.cells.filterMap id := by
  unfold touch
  split <;> simp

theorem Move.buffers_perm (m : Move s p a s' p')
    (mine : ∀ cell, p.cell? = some cell → cell < s.cells.length) :
    (a.returned ++ (p'.buffer?.toList ++ s'.cells.filterMap id)).Perm
      (a.leased ++ (p.buffer?.toList ++ s.cells.filterMap id)) := by
  cases m with
  | lease | handOff | unbound | unbind => exact .rfl
  | find b thread | reach thread =>
    rw [Store.filterMap_cells_touch]
    exact .rfl
  | store b stored =>
    rw [Phase.buffer?_having]
    exact perm_filterMap_set s.cells (mine stored rfl) (some b)
  | take taken =>
    rw [Phase.buffer?_having]
    exact perm_filterMap_set s.cells (mine taken rfl) none

/-- **Buffers are conserved by each step**, but for what the pool leases and takes back. -/
theorem Reachable.buffers_perm {allowed : System → Act → Prop} {s s' : System}
    (r : Reachable allowed s) (m : Step s a s') :
    (a.returned ++ s'.buffers).Perm (a.leased ++ s.buffers) := by
  have sound := r.sound
  obtain ⟨before, after, m⟩ := m
  have all := m.buffers_perm (sound.clients _ (List.mem_append_right _ List.mem_cons_self))
  -- the buffers of one client, those of the cells, and those of the other clients
  have split (s : Store) (p : Phase) : (System.buffers ⟨s, before ++ p :: after⟩).Perm
      ((p.buffer?.toList ++ s.cells.filterMap id) ++
        (before ++ after).filterMap Phase.buffer?) := by
    have row : (before ++ p :: after).filterMap Phase.buffer? = before.filterMap Phase.buffer? ++
        (p.buffer?.toList ++ after.filterMap Phase.buffer?) := by
      rw [List.filterMap_append, List.filterMap_cons]
      cases p.buffer? <;> rfl
    rw [System.buffers, row, List.filterMap_append, List.perm_iff_count]
    intro b
    simp only [List.count_append]
    omega
  refine ((split _ _).append_left _).trans (.trans ?_ ((split _ _).append_left _).symm)
  simpa only [List.append_assoc] using all.append_right ((before ++ after).filterMap Phase.buffer?)

/-! ## 4. Two sections without anyone in between -/

namespace Store

theorem find?_bindings (s : Store) (thread : ThreadId) :
    Dict.find? s.bindings thread = (Dict.find? s.table thread).map s.contents := by
  unfold bindings
  induction s.table with
  | nil => rfl
  | cons entry rest ih =>
    rw [List.map_cons, Dict.find?, Dict.find?]
    split
    · rfl
    · exact ih

theorem Sound.bindings (h : s.Sound) : Dict.Ordered s.bindings := h.ordered.map _

theorem contents_cellOf (s : Store) (thread : ThreadId) :
    s.contents (s.cellOf thread) = (Dict.find? s.bindings thread).join := by
  rw [find?_bindings, cellOf]
  cases Dict.find? s.table thread with
  | none => simp [contents]
  | some cell => rfl

/-- **A cell that is looked up and then filled or emptied is a binding that changes.** -/
theorem Sound.bindings_put (h : s.Sound) (thread : ThreadId) (b : Option Buffer) :
    ((s.touch thread).put (s.cellOf thread) b).bindings = Dict.insert s.bindings thread b := by
  have touched := h.touch thread
  have named : Dict.find? (s.touch thread).table thread = some (s.cellOf thread) := by
    rw [find?_touch, if_pos rfl]
  refine Dict.Ordered.ext (touched.put _ b).bindings (h.bindings.insert thread b) fun other => ?_
  rw [find?_bindings]
  show (Dict.find? (s.touch thread).table other).map _ = _
  by_cases same : other = thread
  · subst same
    rw [named, Option.map_some, contents_put _ _ _ _ (h.cellOf_lt other), if_pos rfl,
      Dict.find?_insert_self]
  · rw [Dict.find?_insert_of_ne _ _ same, find?_bindings, find?_touch, if_neg same]
    refine Option.map_congr fun cell found => ?_
    have differ : cell ≠ s.cellOf thread := by
      rintro rfl
      refine same (touched.apart other thread _ ?_ named)
      rw [find?_touch, if_neg same]
      exact found
    rw [contents_put _ _ _ _ (h.cellOf_lt thread), if_neg differ, contents_touch]

/-- A cell that is struck off and then emptied is a binding that goes. -/
theorem Sound.bindings_strike (h : s.Sound) (thread : ThreadId) {cell : Nat}
    (found : Dict.find? s.table thread = some cell) :
    ((s.strike thread).put cell none).bindings = Dict.erase s.bindings thread := by
  have struck := h.strike thread
  refine Dict.Ordered.ext (struck.put cell none).bindings (h.bindings.erase thread) fun other => ?_
  rw [find?_bindings]
  show (Dict.find? (s.strike thread).table other).map _ = _
  by_cases same : other = thread
  · rw [find?_strike, if_pos same, same, Dict.find?_erase_self]
    rfl
  · rw [Dict.find?_erase_of_ne _ same, find?_bindings, find?_strike, if_neg same]
    refine Option.map_congr fun named here => ?_
    have differ : named ≠ cell := by
      rintro rfl
      exact same (h.apart other thread _ here found)
    exact (contents_put (s.strike thread) cell named none (h.bound thread cell found)).trans
      (if_neg differ)

end Store

variable {s₁ s₂ : Store} {p₁ p₂ : Phase} {pool : Space} {b : Buffer}

/-- **A writer that gives its buffer back** binds it in one step, and has on its hands what was
bound before. -/
theorem Move.store_after_find (h : s.Sound) (same : pool.bindings = s.bindings)
    (first : Move s (.holding b) (.find thread) s₁ p₁) (second : Move s₁ p₁ a s₂ p₂) :
    s₂.bindings = (pool.bind thread (some b)).bindings ∧ p₂ = .having (pool.bound? thread) := by
  cases first
  cases second
  rw [Space.bind, Space.bound?, same, ← Store.contents_cellOf, Store.contents_touch]
  exact ⟨h.bindings_put thread (some b), rfl⟩

/-- **A writer that begins** takes what is bound, in one step. -/
theorem Move.take_after_reach (h : s.Sound) (same : pool.bindings = s.bindings)
    (first : Move s .idle (.reach thread) s₁ p₁) (second : Move s₁ p₁ a s₂ p₂) :
    s₂.bindings = (pool.bind thread none).bindings ∧ p₂ = .having (pool.bound? thread) := by
  cases first
  cases second
  rw [Space.bind, Space.bound?, same, ← Store.contents_cellOf, Store.contents_touch]
  exact ⟨h.bindings_put thread none, rfl⟩

/-- **A thread that ends** is unbound in one step, and what was bound is on the hands of its
client. -/
theorem Move.take_after_unbind (h : s.Sound) (same : pool.bindings = s.bindings)
    (first : Move s .idle (.unbind thread) s₁ (.taking cell))
    (second : Move s₁ (.taking cell) a s₂ p₂) :
    s₂.bindings = (pool.unbind thread).bindings ∧ p₂ = .having (pool.bound? thread) := by
  cases first with
  | unbind _ _ found =>
    cases second
    have here : s.cellOf thread = cell := by rw [Store.cellOf, found, Option.getD_some]
    rw [Space.unbind, Space.bound?, same, ← Store.contents_cellOf, here]
    exact ⟨h.bindings_strike thread found, rfl⟩

end Bindings

end TraceRecorder
