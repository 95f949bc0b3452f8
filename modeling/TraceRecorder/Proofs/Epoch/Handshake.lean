/-
# What the handshake of writers and drains keeps apart

Whatever the order in which clients make their steps, a pin and a barrier that has not flipped the
epoch never stand together.  The invariant behind this is `System.Agrees`.

* A writer that **has looked at the barrier a second time** can still be refused, by the epoch.  It
  counts from then on: once a drain has seen a count of zero in a generation, no client confirms
  that generation or has a pin in it (`Agrees.apart`).
* A drain relies on the epoch that it has found, and a pin on the epoch that it has confirmed
  (`Phase.relies?`, `Agrees.current`).

The main statement is `Reachable.exclusive_barrier`, for all systems that come about.
-/
import TraceRecorder.Epoch.Handshake
import Mathlib.Data.List.Count
import Mathlib.Data.List.Perm.Basic
import Mathlib.Tactic.Common

namespace TraceRecorder

theorem WriterCounts.of_change (n : WriterCounts) (f : Nat → Nat) (e e' : Epoch) :
    (n.change f e).of e' = if e' = e then f (n.of e) else n.of e' := by
  cases e <;> cases e' <;> rfl

namespace Handshake

/-! ## 1. What a phase says about the shared words -/

namespace Phase

/-- A writer that has looked at the barrier a second time, and the generation that it is in. -/
def passed? : Phase → Option Epoch
  | confirming e | pinned e => some e
  | _ => none

/-- The generation that a drain has seen empty and not retired. -/
def emptied? : Phase → Option Epoch
  | announcing e => some e
  | p => p.secured?

def relies? : Phase → Option Epoch
  | pinned e | emptying e | announcing e => some e
  | p => p.barrier?.map fun b => if b.flipped then b.retiring.other else b.retiring

theorem counted?_of_passed? {p : Phase} {e : Epoch} (h : p.passed? = some e) :
    p.counted? = some e := by
  cases p <;> simp_all [passed?, counted?]

theorem owns_of_emptied? {p : Phase} {e : Epoch} (h : p.emptied? = some e) : p.owns := by
  cases p <;> simp_all [emptied?, secured?, barrier?, owns]

/-- **Only a pin or the barrier makes a client rely on the epoch.** -/
theorem owns_of_relies? {p : Phase} {e : Epoch} (h : p.relies? = some e) :
    p = pinned e ∨ p.owns := by
  cases p <;> simp_all [relies?, barrier?, owns]

end Phase

/-! ## 2. The invariant -/

/-- **The words say what the clients do.** -/
structure Agrees (w : Words) (clients : List Phase) : Prop where
  /-- The counts are those of the clients. -/
  counts : ∀ e, w.writers.of e = clients.countP (·.counted? == some e)
  /-- The barrier is up for exactly one client, or it is down. -/
  owner : clients.countP Phase.owns = w.barrier.toNat
  /-- The epoch is the one that clients rely on. -/
  current : ∀ p ∈ clients, ∀ e, p.relies? = some e → w.current = e
  /-- No writer has passed the barrier into a generation that was seen empty. -/
  apart : ∀ p ∈ clients, ∀ e, p.emptied? = some e → ∀ q ∈ clients, q.passed? ≠ some e
  /-- The generation that is announced is that of the barrier, until it flips. -/
  draining : ∀ e, w.draining = some e ↔ .holding { retiring := e } ∈ clients

namespace Agrees

variable {w w' : Words} {p p' q : Phase} {rest clients clients' : List Phase} {e : Epoch}

theorem perm (h : Agrees w clients) (same : clients.Perm clients') : Agrees w clients' where
  counts e := by rw [h.counts, same.countP_eq]
  owner := by rw [← same.countP_eq, h.owner]
  current p hp := h.current p (same.mem_iff.mpr hp)
  apart p hp e he q hq := h.apart p (same.mem_iff.mpr hp) e he q (same.mem_iff.mpr hq)
  draining e := by rw [h.draining, same.mem_iff]

/-- **Who has the barrier is the only one.** -/
theorem alone (h : Agrees w (p :: rest)) (mine : p.owns) : ∀ q ∈ rest, ¬ q.owns := by
  have total := h.owner
  rw [List.countP_cons_of_pos mine] at total
  have none_else : rest.countP Phase.owns = 0 := by
    have := Bool.toNat_le w.barrier
    omega
  simpa [List.countP_eq_zero] using none_else

theorem up (h : Agrees w (p :: rest)) (mine : p.owns) : w.barrier = true := by
  have total := h.owner
  rw [List.countP_cons_of_pos mine] at total
  cases b : w.barrier <;> simp_all

theorem free (h : Agrees w clients) (down : w.barrier = false) : ∀ q ∈ clients, ¬ q.owns := by
  have total := h.owner
  simpa [down, List.countP_eq_zero] using total

theorem none_passed (h : Agrees w clients) (clear : w.writers.of e = 0) :
    ∀ q ∈ clients, q.passed? ≠ some e := by
  intro q hq passed
  have zero := h.counts e
  rw [clear, eq_comm, List.countP_eq_zero] at zero
  exact zero q hq (by simp [Phase.counted?_of_passed? passed])

theorem counted (h : Agrees w (p :: rest)) (mine : p.counted? = some e) :
    w.writers.of e = rest.countP (·.counted? == some e) + 1 := by
  rw [h.counts e, List.countP_cons_of_pos (by simp [mine])]

theorem apart_of (h : Agrees w (p :: rest))
    (seen : ∀ e, p'.emptied? = some e → p.emptied? = some e)
    (past : ∀ e, p'.passed? = some e → p.passed? = some e) :
    ∀ q ∈ p' :: rest, ∀ e, q.emptied? = some e → ∀ x ∈ p' :: rest, x.passed? ≠ some e := by
  have kept := h.apart
  grind

/-! ## 3. One step keeps it -/

/-- The counts are still those of the clients. -/
theorem counts_move (h : Agrees w (p :: rest)) (m : Move w p w' p') (e : Epoch) :
    w'.writers.of e = (p' :: rest).countP (·.counted? == some e) := by
  cases m with
  | enter e' =>
    rw [WriterCounts.of_change, h.counts, h.counts,
      List.countP_cons_of_neg (by simp [Phase.counted?]),
      List.countP_cons_of_neg (by simp [Phase.counted?])]
    by_cases same : e = e'
    · rw [if_pos same, List.countP_cons_of_pos (by simp [Phase.counted?, same]), same]
    · rw [if_neg same, List.countP_cons_of_neg (by simp [Phase.counted?, Ne.symm same])]
  | retreat e' | unpin e' =>
    rw [WriterCounts.of_change, List.countP_cons_of_neg (by simp [Phase.counted?]),
      h.counted rfl]
    by_cases same : e = e'
    · rw [if_pos same, same, Nat.add_sub_cancel]
    · rw [if_neg same, h.counts, List.countP_cons_of_neg (by simp [Phase.counted?, Ne.symm same])]
  | _ => simpa [Phase.counted?, List.countP_cons] using h.counts e

theorem owner_move (h : Agrees w (p :: rest)) (m : Move w p w' p') :
    (p' :: rest).countP Phase.owns = w'.barrier.toNat := by
  have before := h.owner
  cases m with
  | lower b =>
    have up := h.up rfl
    simp_all [Phase.owns, List.countP_cons]
  | _ => simp_all [Phase.owns, List.countP_cons]

/-- **No flip takes the epoch away from a client that relies on it**: whoever has seen the
generation empty is alone with the barrier, and no pin is left in that generation. -/
theorem current_move (h : Agrees w (p :: rest)) (m : Move w p w' p') :
    ∀ q ∈ p' :: rest, ∀ e, q.relies? = some e → w'.current = e := by
  have mine := h.current p (by simp)
  have theirs : ∀ q ∈ rest, ∀ e, q.relies? = some e → w.current = e := fun q hq =>
    h.current q (by simp [hq])
  rw [List.forall_mem_cons]
  cases m with
  | store e =>
    refine ⟨by simp [Phase.relies?, Phase.barrier?], fun q hq e' relies => ?_⟩
    exfalso
    obtain rfl | owns := Phase.owns_of_relies? relies
    · have same : e' = e := (theirs _ hq e' rfl).symm.trans (mine e rfl)
      exact h.apart (.storing e) (by simp) e rfl (.pinned e') (by simp [hq]) (by rw [same]; rfl)
    · exact h.alone rfl q hq owns
  | grant e same => exact ⟨by simp [Phase.relies?, same], theirs⟩
  | find => exact ⟨by simp [Phase.relies?], theirs⟩
  | occupied e | empty e | announce e | beginFlip e | count e | answer e | flipAgain e
  | letGo b => exact ⟨mine, theirs⟩
  | _ => exact ⟨by simp [Phase.relies?, Phase.barrier?], theirs⟩

/-- **Nobody passes the barrier into a generation that was seen empty**: who passes it finds it
down, so nobody has it; and who sees the generation empty finds nobody that has passed. -/
theorem apart_move (h : Agrees w (p :: rest)) (m : Move w p w' p') :
    ∀ q ∈ p' :: rest, ∀ e, q.emptied? = some e → ∀ x ∈ p' :: rest, x.passed? ≠ some e := by
  cases m with
  | passBarrier e' down =>
    intro q hq e emptied
    exfalso
    rcases List.mem_cons.mp hq with rfl | hq
    · simp [Phase.emptied?, Phase.secured?, Phase.barrier?] at emptied
    · exact h.free down q (by simp [hq]) (Phase.owns_of_emptied? emptied)
  | empty e' clear =>
    intro q hq e emptied
    have same : e = e' := by
      rcases List.mem_cons.mp hq with rfl | hq
      · simpa [Phase.emptied?, eq_comm] using emptied
      · exact absurd (Phase.owns_of_emptied? emptied) (h.alone rfl q hq)
    rw [List.forall_mem_cons, same]
    exact ⟨by simp [Phase.passed?], fun x hx => h.none_passed clear x (by simp [hx])⟩
  | _ =>
    refine h.apart_of ?_ ?_ <;>
      simp [Phase.emptied?, Phase.secured?, Phase.barrier?, Phase.passed?]

theorem draining_move (h : Agrees w (p :: rest)) (m : Move w p w' p') (e : Epoch) :
    w'.draining = some e ↔ .holding { retiring := e } ∈ p' :: rest := by
  have before := h.draining e
  have alone : p.owns → ∀ b, Phase.holding b ∉ rest := fun mine b hb => h.alone mine _ hb rfl
  cases m with
  | announce e' | beginFlip e' | letGo b => simp_all [Phase.owns, eq_comm]
  | _ => simpa using before

/-- **One step of a client keeps the invariant.** -/
theorem move (h : Agrees w (p :: rest)) (m : Move w p w' p') : Agrees w' (p' :: rest) where
  counts := h.counts_move m
  owner := h.owner_move m
  current := h.current_move m
  apart := h.apart_move m
  draining := h.draining_move m

end Agrees

/-! ## 4. Systems -/

section Systems

variable {s s' : System} {i j : Nat} {b b' : Barrier} {e : Epoch}

/-- **The invariant holds in every system that comes about.** -/
theorem Reachable.agrees (r : Reachable s) : Agrees s.words s.clients := by
  induction r with
  | start n =>
    refine ⟨fun e => ?_, ?_, ?_, ?_, fun e => ?_⟩
    · cases e <;> simp [WriterCounts.of, List.countP_replicate, Phase.counted?]
    · simp [List.countP_replicate, Phase.owns]
    · simp [Phase.relies?, Phase.barrier?]
    · simp [Phase.passed?]
    · simp
  | step _ m ih =>
    cases m with
    | move before after m => exact ((ih.perm List.perm_middle).move m).perm List.perm_middle.symm

/-- The barrier that one of the clients has been granted. -/
def System.barrierOf (s : System) (i : Nat) : Option Barrier :=
  s.clients[i]?.bind Phase.barrier?

theorem System.owns_of_barrierOf (h : s.barrierOf i = some b) :
    ∃ p, s.clients[i]? = some p ∧ p.owns ∧ p.barrier? = some b := by
  obtain ⟨p, at_i, granted⟩ := Option.bind_eq_some_iff.mp h
  exact ⟨p, at_i, by cases p <;> simp_all [Phase.barrier?, Phase.owns], granted⟩

/-- **The barrier is one client's at a time.** -/
theorem Agrees.owner_unique {w : Words} {clients : List Phase} {p q : Phase}
    (h : Agrees w clients) (hp : clients[i]? = some p) (hq : clients[j]? = some q)
    (p_owns : p.owns) (q_owns : q.owns) : i = j := by
  by_contra differ
  obtain ⟨bound, rfl⟩ := List.getElem?_eq_some_iff.mp hp
  have others := (h.perm (List.getElem_cons_eraseIdx_perm bound).symm).alone p_owns
  exact others q (List.mem_eraseIdx_iff_getElem?.mpr ⟨j, Ne.symm differ, hq⟩) q_owns

theorem Agrees.barrierOf_unique (h : Agrees s.words s.clients) (hi : s.barrierOf i = some b)
    (hj : s.barrierOf j = some b') : i = j := by
  obtain ⟨p, at_i, p_owns, -⟩ := System.owns_of_barrierOf hi
  obtain ⟨q, at_j, q_owns, -⟩ := System.owns_of_barrierOf hj
  exact h.owner_unique at_i at_j p_owns q_owns

theorem Step.client (m : Step s s') :
    ∃ k p p', s.clients[k]? = some p ∧ Move s.words p s'.words p' ∧
      ∀ j : Nat, s'.clients[j]? = if k = j then some p' else s.clients[j]? := by
  cases m with
  | @move _ _ p p' before after m =>
    refine ⟨before.length, p, p', by simp, m, fun j => ?_⟩
    have set : before ++ p' :: after = (before ++ p :: after).set before.length p' := by simp
    rw [set, List.getElem?_set]
    simp

/-- **The epoch changes only where the client with the barrier stores the new one.** -/
theorem Step.storing (m : Step s s') (changed : s'.words.current ≠ s.words.current) :
    ∃ (i : Nat) (e : Epoch), s.clients[i]? = some (Phase.storing e) ∧
      s'.clients[i]? = some (Phase.counting e) ∧ s'.words.current = e.other := by
  cases m with
  | move before after m =>
    cases m with
    | store e => exact ⟨before.length, e, by simp, by simp, rfl⟩
    | _ => exact absurd rfl changed

/-- **While a generation is kept free of writers, nobody has a pin.** -/
theorem Agrees.unpinned (h : Agrees s.words s.clients) {p : Phase} (hp : p ∈ s.clients)
    (secured : p.secured? = some e) (e' : Epoch) :
    .pinned e' ∉ s.clients ∧ (.confirming e' ∈ s.clients → s.words.current ≠ e') := by
  have emptied : p.emptied? = some e := by
    cases p <;> simp_all [Phase.secured?, Phase.barrier?, Phase.emptied?]
  have found : s.words.current = e := h.current p hp e (by
    cases p <;> simp_all [Phase.secured?, Phase.barrier?, Phase.relies?])
  have nobody := h.apart p hp e emptied
  constructor
  · intro pinned
    have same : s.words.current = e' := h.current _ pinned e' rfl
    exact nobody _ pinned (by rw [← found, same]; rfl)
  · intro confirming same
    exact nobody _ confirming (by rw [← found, same]; rfl)

theorem Agrees.ungranted (h : Agrees s.words s.clients) {p : Phase} (hp : p ∈ s.clients)
    (secured : p.secured? = some e) (m : Step s s') (e' : Epoch) : .pinned e' ∉ s'.clients := by
  obtain ⟨none_pinned, none_confirmed⟩ := h.unpinned hp secured e'
  obtain ⟨k, q, q', at_k, m, clients⟩ := m.client
  generalize s.words = w, s'.words = w' at m none_confirmed
  intro pinned
  obtain ⟨j, at_j⟩ := List.mem_iff_getElem?.mp pinned
  rw [clients] at at_j
  by_cases mine : k = j
  · obtain rfl : q' = .pinned e' := by simpa [mine] using at_j
    cases m with
    | grant e same => exact none_confirmed (List.mem_of_getElem? at_k) same
  · exact none_pinned (List.mem_of_getElem? (by simpa [mine] using at_j))

/-- **The life of a barrier**: one client has it in each system from the first to the last, and the
epoch has changed the given number of times. -/
inductive Tenure (i : Nat) : System → System → Nat → Prop where
  | start {s : System} {b : Barrier} (granted : s.barrierOf i = some b) : Tenure i s s 0
  | step {s s' s'' : System} {b : Barrier} {flips : Nat} (t : Tenure i s s' flips)
      (m : Step s' s'') (held : s''.barrierOf i = some b) :
      Tenure i s s'' (flips + if s''.words.current = s'.words.current then 0 else 1)

theorem Move.flipped {w w' : Words} {p p' : Phase} (m : Move w p w' p')
    (found : ∀ e, p.relies? = some e → w.current = e)
    (before : p.barrier? = some b) (after : p'.barrier? = some b') :
    b'.flipped.toNat = b.flipped.toNat + if w'.current = w.current then 0 else 1 := by
  cases m with
  | store e =>
    have now : w.current = e := found e rfl
    have differ : e.other ≠ e := by cases e <;> decide
    cases before
    cases after
    simp [now, differ]
  | _ => simp_all [Phase.barrier?]

/-- **Across a step of the whole system** a client that keeps its barrier marks it as flipped when
the epoch changes, and only then. -/
theorem Agrees.flipped_step (h : Agrees s.words s.clients) (m : Step s s')
    (before : s.barrierOf i = some b) (after : s'.barrierOf i = some b') :
    b'.flipped.toNat = b.flipped.toNat + if s'.words.current = s.words.current then 0 else 1 := by
  obtain ⟨p, at_i, owns, granted⟩ := System.owns_of_barrierOf before
  obtain ⟨p', at_i', -, granted'⟩ := System.owns_of_barrierOf after
  obtain ⟨k, q, q', at_k, move, clients⟩ := m.client
  by_cases mine : k = i
  · subst mine
    obtain rfl : p = q := by simpa [at_i] using at_k
    obtain rfl : q' = p' := by simpa [clients] using at_i'
    exact move.flipped (h.current p (List.mem_of_getElem? at_i)) granted granted'
  · have same : s'.words.current = s.words.current := by
      by_contra changed
      obtain ⟨j, e, storing, counting, -⟩ := m.storing changed
      obtain rfl : i = j := h.owner_unique at_i storing owns rfl
      simp [clients, mine, storing] at counting
    obtain rfl : p = p' := by simpa [clients, mine, at_i] using at_i'
    obtain rfl : b = b' := by simpa [granted] using granted'
    simp [same]

/-- **In the life of one barrier the epoch changes at most once**: as often as its mark. -/
theorem Tenure.flips {n : Nat} (t : Tenure i s s' n) (r : Reachable s) :
    Reachable s' ∧ ∃ b b', s.barrierOf i = some b ∧ s'.barrierOf i = some b' ∧
      b'.flipped.toNat = b.flipped.toNat + n := by
  induction t with
  | start granted => exact ⟨r, _, _, granted, granted, rfl⟩
  | step _ m held ih =>
    obtain ⟨r', b, b', before, middle, count⟩ := ih
    refine ⟨r'.step m, b, _, before, held, ?_⟩
    rw [r'.agrees.flipped_step m middle held, count, Nat.add_assoc]

/-! ## 5. What clients may rely on -/

/-- **What the handshake promises in a system**, and for the next step of it. -/
structure System.Exclusive (s : System) : Prop where
  /-- The epoch is that of every pin. -/
  pinned : ∀ e, .pinned e ∈ s.clients → s.words.current = e
  /-- While a client keeps a generation free of writers, nobody has a pin. -/
  unpinned : ∀ p ∈ s.clients, p.secured? ≠ none → ∀ e, .pinned e ∉ s.clients
  /-- Nor is one granted in the next step. -/
  ungranted : ∀ p ∈ s.clients, p.secured? ≠ none →
    ∀ s', Step s s' → ∀ e, .pinned e ∉ s'.clients
  /-- The barrier is one client's at a time. -/
  owner : ∀ i j b c, s.barrierOf i = some b → s.barrierOf j = some c → i = j
  /-- The epoch changes only where the one with the barrier stores the other generation. -/
  change : ∀ s', Step s s' → s'.words.current ≠ s.words.current →
    ∃ (i : Nat) (e : Epoch), s.clients[i]? = some (Phase.storing e) ∧
      s'.clients[i]? = some (Phase.counting e) ∧
      s.words.current = e ∧ s'.words.current = e.other
  /-- It does so at most once before that barrier is down. -/
  once : ∀ i s' flips, Tenure i s s' flips → flips ≤ 1
  /-- The generation to retire is announced until the barrier flips or is let go of. -/
  announced : ∀ e, .holding { retiring := e } ∈ s.clients → s.words.draining = some e

/-- **Pins and barriers exclude each other, in every order of steps**: no client loses its epoch
under a pin, a barrier that has not flipped stands alone, and it flips at most once.

The steps are single reads and writes of the shared words, by any number of clients, in any order.
So a writer that has read the epoch and a drain that has raised its barrier may both be halfway when
the other one goes on.  What decides between them is the order of their two accesses each: the
writer counts itself in before it looks for the barrier, and the drain raises the barrier before it
looks at the count.  One of them sees the other and gives way. -/
theorem Reachable.exclusive_barrier (r : Reachable s) : s.Exclusive where
  pinned e pinned := r.agrees.current _ pinned e rfl
  unpinned p hp secured e := by
    obtain ⟨e', secured⟩ := Option.ne_none_iff_exists'.mp secured
    exact (r.agrees.unpinned hp secured e).1
  ungranted p hp secured s' m e := by
    obtain ⟨e', secured⟩ := Option.ne_none_iff_exists'.mp secured
    exact r.agrees.ungranted hp secured m e
  owner i j b c hi hj := r.agrees.barrierOf_unique hi hj
  change s' m changed := by
    obtain ⟨i, e, storing, counting, now⟩ := m.storing changed
    have before := r.agrees.current _ (List.mem_of_getElem? storing) e rfl
    exact ⟨i, e, storing, counting, before, now⟩
  once i s' flips t := by
    obtain ⟨-, b, b', -, -, count⟩ := t.flips r
    have := Bool.toNat_le b'.flipped
    omega
  announced e holding := (r.agrees.draining e).mpr holding

/-- A system of two clients: a writer that has read the epoch while the barrier was down counts
itself in after a drain has been granted its barrier. -/
def System.late : System where
  words := { writers := { zero := 1 }, barrier := true, draining := some .zero }
  clients := [.checking .zero, .holding { retiring := .zero }]

theorem Reachable.late : Reachable System.late := by
  have writer {w w' : Words} {p p' q : Phase} (m : Move w p w' p') (r : Reachable ⟨w, [p, q]⟩) :
      Reachable ⟨w', [p', q]⟩ := r.step (.move [] [q] m)
  have drain {w w' : Words} {p p' q : Phase} (m : Move w p w' p') (r : Reachable ⟨w, [q, p]⟩) :
      Reachable ⟨w', [q, p']⟩ := r.step (.move [q] [] m)
  have asked : Reachable ⟨{}, [.entering .zero, .idle]⟩ :=
    writer (.read _) (writer (.admitted _ rfl) (writer (.askPin _) (.start 2)))
  have raised : Reachable ⟨{ barrier := true }, [.entering .zero, .emptying .zero]⟩ :=
    drain (.find _) (drain (.raise _ rfl) (drain (.askBarrier _) asked))
  exact writer (.enter _ _) (drain (.announce _ _) (drain (.empty _ _ rfl) raised))

/-- **The late writer gets no pin** before that barrier flips or is down. -/
theorem Reachable.exclusive_barrier_late : Reachable System.late ∧ System.late.Exclusive :=
  ⟨Reachable.late, Reachable.exclusive_barrier Reachable.late⟩

end Systems

end Handshake

end TraceRecorder
