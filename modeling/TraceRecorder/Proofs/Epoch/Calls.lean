/-
# What calls on the epoch protocol keep

Whatever calls clients make and in whatever order, each call is a row of single steps that its
client makes in the handshake while nobody comes in between (`EpochController.Obeys.goes`).  So the
words that all clients share are, between two calls, those of a system that comes about in the
handshake (`EpochClients.Mirrors`).  From there we read off:

* `Orderly`: pins are counted, and are all of the current generation; while the barrier is up there
  are none; the epoch is the number of flips modulo two.
* `Responds`: what each call of a client answers and leaves, who is refused, and what the flips of
  one barrier come to.
* `Lends`: a lease for a drain is of the generation that is being retired, and there is none at any
  other time.  The lease depends on the announcement alone (`Recorder.runOn_leaseEpoch`).
-/
import Mathlib.Logic.Relation
import TraceRecorder.Epoch.Calls
import TraceRecorder.Proofs.Epoch.Handshake
import TraceRecorder.Proofs.Outcome
import TraceRecorder.Recorder.Lease

namespace TraceRecorder

/-! ## 1. Calls as rows of steps -/

namespace Handshake

/-- **One client makes some steps**, one after the other, and nobody else does. -/
def Goes (w : Words) (p : Phase) (w' : Words) (p' : Phase) : Prop :=
  Relation.ReflTransGen (fun s s' : Words × Phase => Move s.1 s.2 s'.1 s'.2) (w, p) (w', p')

theorem Goes.refl {w : Words} {p : Phase} : Goes w p w p := Relation.ReflTransGen.refl

theorem Goes.step {w w' w'' : Words} {p p' p'' : Phase} (m : Move w p w' p')
    (g : Goes w' p' w'' p'') : Goes w p w'' p'' := Relation.ReflTransGen.head m g

/-- **A system in which one client makes some steps** is still one that comes about. -/
theorem Reachable.goes {w w' : Words} {p p' : Phase} {before after : List Phase}
    (r : Reachable ⟨w, before ++ p :: after⟩) (g : Goes w p w' p') :
    Reachable ⟨w', before ++ p' :: after⟩ := by
  have all : ∀ s, Relation.ReflTransGen (fun s s' : Words × Phase => Move s.1 s.2 s'.1 s'.2)
      (w, p) s → Reachable ⟨s.1, before ++ s.2 :: after⟩ := by
    intro s g
    induction g with
    | refl => exact r
    | tail _ m ih => exact ih.step (.move before after m)
  exact all (w', p') g

end Handshake

open Handshake (Goes Phase Words System Reachable Agrees)

/-- The words that clients share, as the controller has them between two calls. -/
def EpochController.words (c : EpochController) : Words where
  current := c.current
  writers := c.writers
  barrier := c.barrier.isSome
  draining := c.draining
  shifts := c.shifts

/-- How far a client is between two calls. -/
def EpochHandle.phase : EpochHandle → Phase
  | nothing => .idle
  | pin e => .pinned e
  | barrier b => .holding b

namespace EpochController

theorem flip_eq {c : EpochController} {b : Barrier} (h : c.barrier = some b) :
    c.flip = if b.flipped then c else
      { c with
        current := b.retiring.other, barrier := some { b with flipped := true }
        shifts := c.shifts + 1 } := by
  obtain ⟨retiring, flipped⟩ := b
  cases flipped <;> simp [flip, h]

theorem barrier_flip {c : EpochController} {b : Barrier} (h : c.barrier = some b) :
    c.flip.barrier = some { b with flipped := true } := by
  obtain ⟨retiring, flipped⟩ := b
  cases flipped <;> simp [flip, h]

/-- **What a call does**, with the guard under which it does so. -/
inductive Obeys (c : EpochController) :
    EpochHandle → EpochCall → EpochAnswer → EpochController → EpochHandle → Prop where
  | pin (down : c.barrier = none) :
      Obeys c .nothing .pin (.epoch c.current) c.enter (.pin c.current)
  | unpin (e : Epoch) : Obeys c (.pin e) .unpin .done (c.leave e) .nothing
  | raise (down : c.barrier = none) (clear : c.writers.of c.current = 0) :
      Obeys c .nothing .raise (.epoch c.current) c.raise (.barrier { retiring := c.current })
  | flip (b : Barrier) :
      Obeys c (.barrier b) .flip (.epoch c.flip.current) c.flip
        (.barrier { b with flipped := true })
  | lower (b : Barrier) : Obeys c (.barrier b) .lower .done c.lower .nothing
  | refusedPin (up : c.barrier ≠ none) : Obeys c .nothing .pin .refused c .nothing
  | refusedRaise (busy : c.barrier ≠ none ∨ c.writers.of c.current ≠ 0) :
      Obeys c .nothing .raise .refused c .nothing
  | misplaced (held : EpochHandle) (request : EpochCall) :
      Obeys c held request .misplaced c held

theorem obeys (c : EpochController) (held : EpochHandle) (request : EpochCall) :
    Obeys c held request (c.serve held request).1 (c.serve held request).2.1
      (c.serve held request).2.2 := by
  cases held with
  | nothing =>
    cases request with
    | pin =>
      by_cases down : c.barrier = none
      · simpa [serve, pin?, admitsWriter, down] using Obeys.pin down
      · simpa [serve, pin?, admitsWriter, down] using Obeys.refusedPin down
    | raise =>
      by_cases free : c.barrier = none ∧ c.writers.of c.current = 0
      · have found : c.raise.current = c.current := rfl
        simpa [serve, raise?, admitsBarrier, free, found] using Obeys.raise free.1 free.2
      · have busy : c.barrier ≠ none ∨ c.writers.of c.current ≠ 0 := by rwa [← not_and_or]
        simpa [serve, raise?, admitsBarrier, free] using Obeys.refusedRaise busy
    | unpin | flip | lower => exact .misplaced _ _
  | pin e =>
    cases request with
    | unpin => exact .unpin e
    | pin | raise | flip | lower => exact .misplaced _ _
  | barrier b =>
    cases request with
    | flip => exact .flip b
    | lower => exact .lower b
    | pin | unpin | raise => exact .misplaced _ _

variable {c c' : EpochController} {held held' : EpochHandle} {request : EpochCall}
  {answer : EpochAnswer}

/-- **A call is a row of steps of its client**, if the barrier that it holds is the one that is
up. -/
theorem Obeys.goes (s : Obeys c held request answer c' held')
    (mine : ∀ b, held = .barrier b → c.barrier = some b) :
    Goes c.words held.phase c'.words held'.phase := by
  cases s with
  | pin down =>
    have down : c.words.barrier = false := by simp [words, down]
    exact .step (.askPin _) (.step (.admitted _ down) (.step (.read _) (.step (.enter _ _)
      (.step (.passBarrier _ _ down) (.step (.grant _ _ rfl) .refl)))))
  | unpin e => exact .step (.unpin _ e) .refl
  | raise down clear =>
    have down : c.words.barrier = false := by simp [words, down]
    exact .step (.askBarrier _) (.step (.raise _ down) (.step (.find _) (.step (.empty _ _ clear)
      (.step (.announce _ _) .refl))))
  | flip b =>
    have up := mine b rfl
    obtain ⟨e, _ | _⟩ := b
    · have flipped : c.flip.words =
          { c.words with draining := none, current := e.other, shifts := c.shifts + 1 } := by
        simp [words, flip_eq up, draining, up]
      rw [flipped]
      exact .step (.beginFlip _ e) (.step (.store _ e) (.step (.count _ e)
        (.step (.answer _ e) .refl)))
    · rw [show c.flip = c by simp [flip_eq up]]
      exact .step (.flipAgain _ e) .refl
  | lower b => exact .step (.letGo _ b) (.step (.lower _ b) .refl)
  | refusedPin | refusedRaise | misplaced => exact .refl

end EpochController

/-! ## 2. What all calls keep -/

namespace EpochClients

variable {s : EpochClients} {before after : List EpochHandle} {held held' : EpochHandle}
  {request : EpochCall} {answer : EpochAnswer} {c' : EpochController} {b : Barrier} {e : Epoch}

/-- **The system of the handshake between two calls**: the shared words, and how far each client
is. -/
def system (s : EpochClients) : System := ⟨s.controller.words, s.handles.map EpochHandle.phase⟩

/-- **A call is one client's**, and what the others hold stays.  A call by nobody changes nothing.
-/
theorem call_cases (s : EpochClients) (client : Nat) (request : EpochCall) :
    (s.handles[client]? = none ∧ s.call client request = (.misplaced, s)) ∨
      ∃ before held after answer c' held', s.handles = before ++ held :: after ∧
        before.length = client ∧ s.controller.Obeys held request answer c' held' ∧
        s.call client request = (answer, ⟨c', before ++ held' :: after⟩) := by
  unfold call
  cases at_client : s.handles[client]? with
  | none => exact .inl ⟨rfl, rfl⟩
  | some held =>
    obtain ⟨bound, rfl⟩ := List.getElem?_eq_some_iff.mp at_client
    obtain ⟨before, after, split, rfl⟩ : ∃ before after,
        s.handles = before ++ s.handles[client] :: after ∧ before.length = client :=
      ⟨s.handles.take client, s.handles.drop (client + 1), by simp, by simp [Nat.le_of_lt bound]⟩
    refine .inr ⟨before, _, after, _, _, _, split, rfl, s.controller.obeys _ request, ?_⟩
    have set (held' : EpochHandle) :
        s.handles.set before.length held' = before ++ held' :: after := by
      rw [split]
      simp
    simp only [set]

theorem call_eq {i : Nat} (holds : s.handles[i]? = some held) (request : EpochCall) :
    s.call i request = ((s.controller.serve held request).1,
      ⟨(s.controller.serve held request).2.1,
        s.handles.set i (s.controller.serve held request).2.2⟩) := by
  unfold call
  rw [holds]

theorem call_kept {i : Nat} (holds : s.handles[i]? = some held)
    (kept : s.controller.serve held request = (answer, s.controller, held)) :
    s.call i request = (answer, s) := by
  obtain ⟨bound, rfl⟩ := List.getElem?_eq_some_iff.mp holds
  rw [call_eq holds, kept, List.set_getElem_self]

theorem call_flip {i : Nat} (holds : s.handles[i]? = some (.barrier b)) :
    s.call i .flip = (.epoch s.controller.flip.current,
      ⟨s.controller.flip, s.handles.set i (.barrier { b with flipped := true })⟩) :=
  call_eq holds .flip

/-- **The clients are in step with the controller.** -/
structure Mirrors (s : EpochClients) : Prop where
  /-- The handshake comes to the same words. -/
  reachable : Reachable s.system
  /-- The barrier is up just for the one who holds it. -/
  barrier : ∀ b, s.controller.barrier = some b ↔ .barrier b ∈ s.handles
  /-- Nobody holds a pin then. -/
  unpinned : ∀ b, .barrier b ∈ s.handles → ∀ e, .pin e ∉ s.handles
  /-- The epoch changes with each flip. -/
  parity : s.controller.current.value = s.controller.shifts % 2

namespace Mirrors

theorem agrees (h : s.Mirrors) : Agrees s.controller.words (s.handles.map EpochHandle.phase) :=
  h.reachable.agrees

theorem agrees_split (h : s.Mirrors) (split : s.handles = before ++ held :: after) :
    Agrees s.controller.words (held.phase :: (before ++ after).map EpochHandle.phase) :=
  h.agrees.perm (by rw [split]; exact List.perm_middle.map EpochHandle.phase)

/-- **Whoever holds the barrier is the only one.** -/
theorem alone (h : s.Mirrors) (split : s.handles = before ++ .barrier b :: after) (b' : Barrier) :
    .barrier b' ∉ before ++ after := fun other =>
  (h.agrees_split split).alone rfl _ (List.mem_map_of_mem other) rfl

theorem holder_unique (h : s.Mirrors) {i j : Nat} {b b' : Barrier}
    (at_i : s.handles[i]? = some (.barrier b)) (at_j : s.handles[j]? = some (.barrier b')) :
    i = j := by
  have phase_i : (s.handles.map EpochHandle.phase)[i]? = some (.holding b) := by
    rw [List.getElem?_map, at_i]
    rfl
  have phase_j : (s.handles.map EpochHandle.phase)[j]? = some (.holding b') := by
    rw [List.getElem?_map, at_j]
    rfl
  exact h.agrees.owner_unique phase_i phase_j rfl rfl

/-- **The epoch under a barrier** is the one that it found, until it flips. -/
theorem current_eq (h : s.Mirrors) (holds : .barrier b ∈ s.handles) :
    s.controller.current = if b.flipped then b.retiring.other else b.retiring :=
  h.agrees.current _ (List.mem_map_of_mem holds) _ rfl

theorem create (clients : Nat) : (EpochClients.create clients).Mirrors where
  reachable := by
    have idle : (EpochClients.create clients).system =
        { clients := List.replicate clients .idle } := by
      simp [system, EpochClients.create, EpochHandle.phase]
      rfl
    exact idle ▸ .start clients
  barrier b := by simp [EpochClients.create]
  unpinned b := by simp [EpochClients.create]
  parity := rfl

/-- **A pin is of the current generation**, and is counted there. -/
theorem pin_current (h : s.Mirrors) (pinned : .pin e ∈ s.handles) :
    s.controller.current = e ∧ s.controller.writers.of e ≠ 0 := by
  have client : Phase.pinned e ∈ s.handles.map EpochHandle.phase := List.mem_map_of_mem pinned
  refine ⟨h.agrees.current _ client e rfl, fun clear => ?_⟩
  exact h.agrees.none_passed clear _ client rfl

/-- The barrier is up just for the one who holds it, also after a call. -/
theorem barrier_obeys (h : s.Mirrors) (split : s.handles = before ++ held :: after)
    (obeys : s.controller.Obeys held request answer c' held') (b : Barrier) :
    c'.barrier = some b ↔ .barrier b ∈ before ++ held' :: after := by
  have found : ∀ b, s.controller.barrier = some b ↔
      .barrier b = held ∨ .barrier b ∈ before ++ after := fun b => by
    rw [h.barrier, split]
    simp [or_left_comm]
  have after_call : .barrier b ∈ before ++ held' :: after ↔
      .barrier b = held' ∨ .barrier b ∈ before ++ after := by simp [or_left_comm]
  rw [after_call]
  cases obeys with
  | flip b₀ =>
    have up : s.controller.barrier = some b₀ := (found b₀).mpr (.inl rfl)
    simp only [EpochController.barrier_flip up, h.alone split b, or_false, Option.some.injEq,
      EpochHandle.barrier.injEq, eq_comm]
  | lower b₀ =>
    simp [EpochController.lower, h.alone split b]
  | raise down clear =>
    have none_up := found b
    simp only [down, reduceCtorEq, false_or, false_iff] at none_up
    simp [EpochController.raise, none_up, eq_comm]
  | pin | unpin | refusedPin | refusedRaise | misplaced =>
    simpa [EpochController.enter, EpochController.leave] using found b

/-- **No pin stands beside a barrier**, also after a call: a pin is only had while the barrier is
down, and the barrier only goes up when the current generation has no pin. -/
theorem unpinned_obeys (h : s.Mirrors) (split : s.handles = before ++ held :: after)
    (obeys : s.controller.Obeys held request answer c' held') (b : Barrier)
    (holds : .barrier b ∈ before ++ held' :: after) (e : Epoch) :
    .pin e ∉ before ++ held' :: after := by
  have kept := h.unpinned
  have up := (h.barrier_obeys split obeys b).mpr holds
  rw [split] at kept
  cases obeys with
  | pin down =>
    rw [EpochController.enter, down] at up
    cases up
  | raise down clear =>
    intro pinned
    have was_pinned : .pin e ∈ s.handles := by simpa [split] using pinned
    obtain ⟨rfl, busy⟩ := h.pin_current was_pinned
    exact busy clear
  | flip b₀ =>
    have none_pinned := kept b₀ (by simp) e
    simpa using none_pinned
  | lower b₀ => cases up
  | unpin e₀ =>
    have holds : .barrier b ∈ before ++ .pin e₀ :: after := by simpa using holds
    exact absurd (by simp) (kept b holds e₀)
  | refusedPin | refusedRaise | misplaced => exact kept b holds e

/-- **The epoch is the number of flips modulo two**, also after a call. -/
theorem parity_obeys (h : s.Mirrors) (split : s.handles = before ++ held :: after)
    (obeys : s.controller.Obeys held request answer c' held') :
    c'.current.value = c'.shifts % 2 := by
  have parity := h.parity
  cases obeys with
  | flip b =>
    have holds : .barrier b ∈ s.handles := by simp [split]
    have current := h.current_eq holds
    rw [EpochController.flip_eq ((h.barrier b).mpr holds)]
    obtain ⟨e, _ | _⟩ := b
    · obtain rfl : s.controller.current = e := current
      have toggled : s.controller.current.other.value = (s.controller.current.value + 1) % 2 := by
        cases s.controller.current <;> rfl
      simp only [Bool.false_eq_true, if_false]
      omega
    · exact parity
  | _ => exact parity

/-- **A call keeps the clients in step.** -/
theorem call (h : s.Mirrors) (client : Nat) (request : EpochCall) :
    (s.call client request).2.Mirrors := by
  rcases s.call_cases client request with
    ⟨-, unchanged⟩ | ⟨before, held, after, answer, c', held', split, -, obeys, run⟩
  · rwa [unchanged]
  · rw [run]
    refine ⟨?_, h.barrier_obeys split obeys, h.unpinned_obeys split obeys,
      h.parity_obeys split obeys⟩
    have goes := obeys.goes fun b mine => (h.barrier b).mpr (by simp [split, mine])
    have start : Reachable ⟨s.controller.words,
        before.map EpochHandle.phase ++ held.phase :: after.map EpochHandle.phase⟩ := by
      simpa [system, split] using h.reachable
    simpa [system] using start.goes goes

/-- **So do all calls.** -/
theorem callAll (h : s.Mirrors) (calls : List (Nat × EpochCall)) : (s.callAll calls).Mirrors := by
  induction calls generalizing s with
  | nil => exact h
  | cons c rest ih => exact ih (h.call c.1 c.2)

/-- **While a client holds the barrier, nobody else's call does anything**: pins and other barriers
are refused, and nobody has a pin to let go of. -/
theorem call_other (h : s.Mirrors) {i j : Nat} (holds : s.handles[i]? = some (.barrier b))
    (other : j ≠ i) (request : EpochCall) : (s.call j request).2 = s := by
  have mem := List.mem_of_getElem? holds
  have up := (h.barrier b).mpr mem
  have mine (b' : Barrier) (at_j : s.handles[j]? = some (.barrier b')) : False :=
    other (h.holder_unique at_j holds)
  rcases s.call_cases j request with
    ⟨-, unchanged⟩ | ⟨before, held, after, answer, c', held', split, length, obeys, run⟩
  · rw [unchanged]
  · have at_j : s.handles[j]? = some held := by simp [split, ← length]
    rw [run]
    cases obeys with
    | pin down | raise down =>
      rw [up] at down
      cases down
    | unpin e => exact absurd (List.mem_of_getElem? at_j) (h.unpinned b mem e)
    | flip b' | lower b' => exact (mine b' at_j).elim
    | refusedPin | refusedRaise | misplaced => rw [← split]

theorem call_flip_again (h : s.Mirrors) {i : Nat} {e : Epoch}
    (holds : s.handles[i]? = some (.barrier { retiring := e, flipped := true })) :
    s.call i .flip = (.epoch e.other, s) := by
  have mem := List.mem_of_getElem? holds
  have current : s.controller.current = e.other := h.current_eq mem
  refine call_kept holds ?_
  rw [EpochController.serve, EpochController.flip_eq ((h.barrier _).mpr mem), if_pos rfl, current]

/-- **The tenure of a barrier.**  Until its client lowers it, all calls together do no more than its
first flip. -/
theorem tenure (h : s.Mirrors) {i : Nat} (holds : s.handles[i]? = some (.barrier b))
    {calls : List (Nat × EpochCall)} (kept : (i, .lower) ∉ calls) :
    s.callAll calls = if (i, .flip) ∈ calls then (s.call i .flip).2 else s := by
  induction calls generalizing s b with
  | nil => rfl
  | cons c rest ih =>
    obtain ⟨j, request⟩ := c
    obtain ⟨not_first, not_later⟩ := not_or.mp (List.mem_cons.not.mp kept)
    show ((s.call j request).2).callAll rest = _
    by_cases mine : j = i
    · subst mine
      cases request with
      | lower => exact absurd rfl not_first
      | flip =>
        have flipped : (s.call j .flip).2.handles[j]? =
            some (.barrier { retiring := b.retiring, flipped := true }) := by
          obtain ⟨bound, -⟩ := List.getElem?_eq_some_iff.mp holds
          simp [call_flip holds, bound]
        have next := h.call j .flip
        rw [ih next flipped not_later, next.call_flip_again flipped, ite_self,
          if_pos List.mem_cons_self]
      | pin | unpin | raise =>
        rw [call_kept holds rfl]
        dsimp only
        rw [ih h holds not_later]
        simp
    · rw [h.call_other holds mine, ih h holds not_later]
      simp [Ne.symm mine]

end Mirrors

/-! ## 3. Laws between two calls -/

/-- **What holds between two calls.** -/
structure Orderly (s : EpochClients) : Prop where
  /-- The pins of each generation are counted. -/
  counted : ∀ e, s.controller.writers.of e = s.handles.count (.pin e)
  pinned : ∀ e, .pin e ∈ s.handles → e = s.controller.current
  previous : s.controller.writers.of s.controller.previous = 0
  /-- Nobody writes under a barrier. -/
  still : ∀ b, .barrier b ∈ s.handles → ∀ e, s.controller.writers.of e = 0
  parity : s.controller.current.value = s.controller.shifts % 2
  /-- The generation that is announced is that of a barrier that has not flipped the epoch. -/
  draining : ∀ e, s.controller.draining = some e ↔ .barrier { retiring := e } ∈ s.handles
  /-- There is one barrier at most. -/
  alone : ∀ (i j : Nat) (b b' : Barrier),
    s.handles[i]? = some (.barrier b) → s.handles[j]? = some (.barrier b') → i = j
  handshake : Reachable s.system

/-- **What the calls of a client come to.** -/
structure Responds (s : EpochClients) (i : Nat) : Prop where
  /-- A pin is of the current generation, while no barrier is up. -/
  pin : s.handles[i]? = some .nothing → (¬ ∃ b, .barrier b ∈ s.handles) →
    s.call i .pin = (.epoch s.controller.current,
      ⟨s.controller.enter, s.handles.set i (.pin s.controller.current)⟩)
  pin_refused : s.handles[i]? = some .nothing → (∃ b, .barrier b ∈ s.handles) →
    s.call i .pin = (.refused, s)
  /-- Who lets go of a pin holds nothing, and is one writer less of the current generation. -/
  unpin : ∀ e, s.handles[i]? = some (.pin e) →
    e = s.controller.current ∧ (s.controller.leave e).enter = s.controller ∧
      s.call i .unpin = (.done, ⟨s.controller.leave e, s.handles.set i .nothing⟩)
  /-- A barrier goes up while there is neither another one nor a pin of the current generation. -/
  raise : s.handles[i]? = some .nothing →
    (¬ ∃ b, .barrier b ∈ s.handles) → .pin s.controller.current ∉ s.handles →
    s.call i .raise = (.epoch s.controller.current,
      ⟨s.controller.raise, s.handles.set i (.barrier { retiring := s.controller.current })⟩)
  raise_refused : s.handles[i]? = some .nothing →
    (∃ b, .barrier b ∈ s.handles) ∨ .pin s.controller.current ∈ s.handles →
    s.call i .raise = (.refused, s)
  /-- The first flip toggles the epoch and is counted. -/
  flip : ∀ e, s.handles[i]? = some (.barrier { retiring := e }) →
    e = s.controller.current ∧ s.call i .flip = (.epoch e.other,
      ⟨{ s.controller with
          current := e.other, barrier := some { retiring := e, flipped := true }
          shifts := s.controller.shifts + 1 },
        s.handles.set i (.barrier { retiring := e, flipped := true })⟩)
  /-- A further flip changes nothing and answers the same. -/
  flipAgain : ∀ e, s.handles[i]? = some (.barrier { retiring := e, flipped := true }) →
    s.call i .flip = (.epoch e.other, s)
  /-- A barrier goes down, flipped or not, and nothing else changes. -/
  lower : ∀ b, s.handles[i]? = some (.barrier b) →
    s.call i .lower = (.done, ⟨{ s.controller with barrier := none }, s.handles.set i .nothing⟩)
  /-- Until a barrier is lowered, all calls together do no more than its first flip. -/
  tenure : ∀ (b : Barrier) (calls : List (Nat × EpochCall)),
    s.handles[i]? = some (.barrier b) → (i, .lower) ∉ calls →
      s.callAll calls = if (i, .flip) ∈ calls then (s.call i .flip).2 else s

namespace Mirrors

theorem counted (h : s.Mirrors) (e : Epoch) :
    s.controller.writers.of e = s.handles.count (.pin e) := by
  have counts : s.controller.writers.of e =
      (s.handles.map EpochHandle.phase).countP (·.counted? == some e) := h.agrees.counts e
  rw [counts, List.countP_map, List.count]
  refine List.countP_congr fun held _ => ?_
  cases held <;> simp [EpochHandle.phase, Phase.counted?]

theorem draining_eq_some (h : s.Mirrors) (e : Epoch) :
    s.controller.draining = some e ↔ .barrier { retiring := e } ∈ s.handles := by
  rw [← h.barrier, EpochController.draining, Option.bind_eq_some_iff]
  constructor
  · rintro ⟨⟨retiring, _ | _⟩, up, found⟩
    · cases found
      exact up
    · cases found
  · intro up
    exact ⟨_, up, rfl⟩

theorem barrier_eq_none (h : s.Mirrors) :
    s.controller.barrier = none ↔ ¬ ∃ b, .barrier b ∈ s.handles := by
  simp [← h.barrier, Option.eq_none_iff_forall_ne_some]

theorem orderly (h : s.Mirrors) : s.Orderly := by
  have pinned : ∀ e, .pin e ∈ s.handles → e = s.controller.current := by
    intro e pin
    exact (h.pin_current pin).1.symm
  refine ⟨h.counted, pinned, ?_, ?_, h.parity, h.draining_eq_some, ?_, h.reachable⟩
  · rw [h.counted, List.count_eq_zero]
    intro pin
    have same : s.controller.current.other = s.controller.current := pinned _ pin
    cases current : s.controller.current <;> simp [current, Epoch.other] at same
  · intro b holds e
    rw [h.counted, List.count_eq_zero]
    exact h.unpinned b holds e
  · intro i j b b' at_i at_j
    exact h.holder_unique at_i at_j

theorem responds (h : s.Mirrors) (i : Nat) : s.Responds i := by
  constructor
  · intro free none_up
    have down := h.barrier_eq_none.mpr none_up
    simp [call_eq free, EpochController.serve, EpochController.pin?, EpochController.admitsWriter,
      down]
  · intro free up
    have up : s.controller.barrier ≠ none := fun down => h.barrier_eq_none.mp down up
    have obeys : s.controller.serve .nothing .pin = (.refused, s.controller, .nothing) := by
      simp [EpochController.serve, EpochController.pin?, EpochController.admitsWriter, up]
    exact call_kept free obeys
  · intro e holds
    obtain ⟨rfl, busy⟩ := h.pin_current (List.mem_of_getElem? holds)
    exact ⟨rfl, s.controller.enter_leave (Nat.pos_of_ne_zero busy), call_eq holds .unpin⟩
  · intro free none_up unpinned
    have down := h.barrier_eq_none.mpr none_up
    have clear : s.controller.writers.of s.controller.current = 0 := by
      rw [h.counted, List.count_eq_zero]
      exact unpinned
    simp [call_eq free, EpochController.serve, EpochController.raise?,
      EpochController.admitsBarrier, down, clear, EpochController.raise]
  · intro free busy
    have busy : ¬ (s.controller.barrier = none ∧
        s.controller.writers.of s.controller.current = 0) := by
      rw [h.barrier_eq_none, h.counted, List.count_eq_zero]
      tauto
    have obeys : s.controller.serve .nothing .raise = (.refused, s.controller, .nothing) := by
      simp [EpochController.serve, EpochController.raise?, EpochController.admitsBarrier, busy]
    exact call_kept free obeys
  · intro e holds
    have found : s.controller.current = e := h.current_eq (List.mem_of_getElem? holds)
    have up := (h.barrier _).mpr (List.mem_of_getElem? holds)
    refine ⟨found.symm, ?_⟩
    rw [call_flip holds, EpochController.flip_eq up]
    rfl
  · intro e holds
    exact h.call_flip_again holds
  · intro b holds
    exact call_eq holds .lower
  · intro b calls holds kept
    exact h.tenure holds kept

end Mirrors

end EpochClients

/-! ## 4. Leases during a drain -/

open Fallible (Answers runOn)

/-- A buffer that a pool leases carries the tag that was asked for. -/
theorem Space.acquire_epoch (grants : Nat → Bool) (size : Nat) (e : Epoch) (owner : Owner)
    (s : Space) : Answers (acquire grants size e owner) s fun lent _ => lent.1.epoch = e := by
  unfold acquire
  refine .after (Fallible.runOn_get s) ?_
  split
  · exact .throw _
  · split
    · refine .bind (.any _ _) fun _ _ _ => .bind (.any _ _) fun _ _ _ => .pure rfl
    · refine .bind (.any _ _) fun evicted s' _ => ?_
      have made : Answers (allocate grants size e owner) s' fun b _ => b.epoch = e := by
        unfold allocate
        refine .after (Fallible.runOn_get s') (.after (Fallible.runOn_set _ _) ?_)
        dsimp only
        split
        · exact .throw _
        · exact .pure rfl
      exact made.bind fun b _ tagged => .pure tagged

namespace Recorder

variable {r : Recorder}

/-- **The epoch of a lease for a drain** is the one that is announced. -/
theorem runOn_leaseEpoch (r : Recorder) :
    runOn (leaseEpoch true) r = match r.epoch.draining with
      | some e => (.ok e, r)
      | none => (.error (.recorder .leaseOutsideDrain), r) := by
  simp only [leaseEpoch, Fallible.runOn_bind, Fallible.runOn_get, if_true]
  cases r.epoch.draining <;> rfl

theorem lease_epoch (kind : BufferKind) (size : Nat) (e : Epoch) (thread : ThreadId)
    (r : Recorder) : Answers (lease kind size e thread) r fun b _ => b.epoch = e := by
  unfold lease
  refine .after (Fallible.runOn_get r) ?_
  have lent : Answers (onSpace kind
      (Space.acquire r.host.memory.grants size e (ownerFor kind thread))) r fun lent r' =>
      ∃ s', r' = r.setSpace kind s' ∧ lent.1.epoch = e := by
    refine Answers.zoom ?_
    exact Space.acquire_epoch _ size e (ownerFor kind thread) (r.space kind)
  refine lent.bind ?_
  rintro ⟨b, how⟩ _ ⟨_, -, tagged⟩
  exact .bind (.any _ _) fun _ _ _ => .pure tagged

/-- **A lease carries the epoch that was chosen for it**, also a buffer that was bound. -/
theorem acquire_epoch {e : Epoch} {duringDrain : Bool} (thread : ThreadId) (kind : BufferKind)
    (size : Nat) (chosen : runOn (leaseEpoch duringDrain) r = (.ok e, r)) :
    Answers (acquire thread kind duringDrain size) r fun b _ => b.epoch = e := by
  unfold acquire
  refine .after chosen ?_
  split
  · refine .bind (.any _ _) fun bound _ _ => ?_
    cases bound with
    | none => exact lease_epoch _ _ _ _ _
    | some b =>
      dsimp only
      split
      case isTrue fits => exact .pure fits.1
      case isFalse => exact .bind (.any _ _) fun _ _ _ => lease_epoch _ _ _ _ _
  · exact lease_epoch _ _ _ _ _

end Recorder

namespace EpochClients

variable {s : EpochClients}

/-- **What a recorder under the protocol lends to drains.** -/
structure Lends (s : EpochClients) (r : Recorder) : Prop where
  /-- An epoch is chosen just under a barrier that has not flipped it: the one that retires. -/
  chosen : ∀ e, runOn (Recorder.leaseEpoch true) r = (.ok e, r) ↔
    .barrier { retiring := e } ∈ s.handles
  /-- The buffer is tagged with that epoch, which is still current. -/
  tagged : ∀ (thread : ThreadId) (kind : BufferKind) (size : Nat) (b : Buffer) (r' : Recorder),
    runOn (Recorder.acquire thread kind true size) r = (.ok b, r') →
      .barrier { retiring := b.epoch } ∈ s.handles ∧ b.epoch = s.controller.current
  /-- Without such a barrier there is no lease. -/
  refused : (∀ e, .barrier { retiring := e } ∉ s.handles) →
    ∃ fault : Fault, fault.report.kind = .usage ∧
      runOn (Recorder.leaseEpoch true) r = (.error fault, r) ∧
      ∀ (thread : ThreadId) (kind : BufferKind) (size : Nat),
        runOn (Recorder.acquire thread kind true size) r = (.error fault, r)

theorem Mirrors.lends (h : s.Mirrors) {r : Recorder} (under : r.epoch = s.controller) :
    s.Lends r := by
  have chosen : ∀ e, runOn (Recorder.leaseEpoch true) r = (.ok e, r) ↔
      .barrier { retiring := e } ∈ s.handles := by
    intro e
    rw [← h.draining_eq_some, ← under, Recorder.runOn_leaseEpoch]
    cases r.epoch.draining <;> simp
  refine ⟨chosen, ?_, ?_⟩
  · intro thread kind size b r' lent
    cases announced : r.epoch.draining with
    | none =>
      have refused := Recorder.runOn_leaseEpoch r
      rw [announced] at refused
      simp [Recorder.acquire, refused] at lent
    | some e =>
      have found := Recorder.runOn_leaseEpoch r
      rw [announced] at found
      obtain rfl : b.epoch = e := (Recorder.acquire_epoch thread kind size found).run_eq lent
      have holds := (chosen b.epoch).mp found
      exact ⟨holds, (h.current_eq holds).symm⟩
  · intro without
    have quiet : r.epoch.draining = none := by
      refine Option.eq_none_iff_forall_ne_some.mpr fun e announced => without e ?_
      rwa [← h.draining_eq_some, ← under]
    have refused := Recorder.runOn_leaseEpoch r
    rw [quiet] at refused
    refine ⟨_, ?_, refused, fun thread kind size => ?_⟩
    · rfl
    · simp [Recorder.acquire, refused]

/-- **The epoch protocol in use**, after any calls of any number of clients. -/
structure Disciplined (s : EpochClients) : Prop where
  orderly : s.Orderly
  responds : ∀ i, s.Responds i
  lends : ∀ r : Recorder, r.epoch = s.controller → s.Lends r

/-- **The protocol keeps its laws under any calls.**  Any number of clients call in any order, also
calls that make no sense for what they hold, which change nothing.  What the words of the controller
say is then always what the handles of the clients say, so each call is answered by what the other
clients hold.  And a recorder that is under the controller lends buffers to drains just while a
barrier is up that has not flipped, tagged with the generation that retires. -/
theorem disciplined (clients : Nat) (calls : List (Nat × EpochCall)) :
    ((create clients).callAll calls).Disciplined := by
  have mirrors := (Mirrors.create clients).callAll calls
  exact ⟨mirrors.orderly, mirrors.responds, fun _ under => mirrors.lends under⟩

/-- A barrier that flips the epoch twice before it is lowered: the epoch alternates. -/
example : ((create 1).callAll [(0, .raise), (0, .flip), (0, .flip), (0, .lower)]).controller =
    { current := .one, shifts := 1 } := by decide

end EpochClients

end TraceRecorder
