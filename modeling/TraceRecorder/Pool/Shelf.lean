/-
# Shelves of free buffers

A shelf holds the free buffers of a pool in a row.  New ones go to the end, and the first one that
meets a wish can be taken out; the last buffer then moves into the gap.

A pool may keep very many buffers, so the row is a tree with the buffers as its leaves, and every
fork of it knows how many buffers there are below and between which capacities they lie.  A search
looks only at one branch of each fork, and a push makes forks of equal halves as far as it can.

`toList` is what a shelf holds, and the laws say what the operations do to that:

* `toList_push`: a buffer is added at the end;
* `takeFirst?_eq_some`: what is taken is the first one that meets the wish, and how the gap closes;
* `takeFirst?_eq_none_iff`: nothing is taken exactly if no buffer meets the wish;
* `takeSmallest?_eq_some`: what is taken is the first one of the least capacity.
-/
import TraceRecorder.Pool.Buffer

namespace TraceRecorder

/-! ## 1. Wishes -/

/-- What a buffer is to be like. -/
inductive Wish where
  | atLeast (size : Nat)
  | atMost (size : Nat)
  deriving DecidableEq, Repr

namespace Wish

/-- A buffer meets the wish. -/
def meets (w : Wish) (b : Buffer) : Bool :=
  match w with
  | atLeast size => size ≤ b.capacity
  | atMost size => b.capacity ≤ size

/-- Some of the buffers with these extreme capacities meets the wish. -/
def meetsWithin (w : Wish) (least most : Nat) : Bool :=
  match w with
  | atLeast size => size ≤ most
  | atMost size => least ≤ size

end Wish

/-! ## 2. Racks -/

/-- One buffer or more, in a row. -/
inductive Rack where
  | one (b : Buffer)
  | fork (left right : Rack)
with
  /-- How many buffers there are. -/
  @[computed_field] length : Rack → Nat
    | .one _ => 1
    | .fork l r => l.length + r.length
  /-- The least capacity. -/
  @[computed_field] least : Rack → Nat
    | .one b => b.capacity
    | .fork l r => min l.least r.least
  /-- The greatest capacity. -/
  @[computed_field] most : Rack → Nat
    | .one b => b.capacity
    | .fork l r => max l.most r.most

deriving instance DecidableEq for Rack

namespace Rack

/-- **The buffers in order.** -/
def toList : Rack → List Buffer
  | one b => [b]
  | fork l r => l.toList ++ r.toList

/-- The rack with one more buffer at its end. -/
def push : Rack → Buffer → Rack
  | one a, b => fork (one a) (one b)
  | fork l r, b => if r.length < l.length then fork l (r.push b) else fork (fork l r) (one b)

/-- The last buffer, and what stands before it. -/
def popLast : Rack → Option Rack × Buffer
  | one b => (none, b)
  | fork l r =>
    match r.popLast with
    | (none, b) => (some l, b)
    | (some r, b) => (some (fork l r), b)

def offers (t : Rack) (w : Wish) : Bool := w.meetsWithin t.least t.most

/-- **The first buffer that meets a wish, and the rack with another one in its place.** -/
def replaceFirst? (w : Wish) (new : Buffer) : Rack → Option (Buffer × Rack)
  | one b => if w.meets b then some (b, one new) else none
  | fork l r =>
    if l.offers w then (l.replaceFirst? w new).map fun found => (found.1, fork found.2 r)
    else (r.replaceFirst? w new).map fun found => (found.1, fork l found.2)

@[simp] theorem length_toList (t : Rack) : t.toList.length = t.length := by
  induction t with
  | one b => simp [toList, length]
  | fork l r hl hr => simp [toList, length, hl, hr]

@[simp] theorem toList_push (t : Rack) (b : Buffer) : (t.push b).toList = t.toList ++ [b] := by
  induction t with
  | one a => simp [push, toList]
  | fork l r _ hr =>
    by_cases h : r.length < l.length
    · simp [push, h, toList, hr]
    · simp [push, h, toList]

theorem toList_popLast (t : Rack) :
    t.toList = ((t.popLast.1.map toList).getD []) ++ [t.popLast.2] := by
  induction t with
  | one b => simp [popLast, toList]
  | fork l r _ hr =>
    rw [toList, popLast, hr]
    rcases r.popLast with ⟨_ | rest, b⟩ <;> simp [toList]

/-- There is a buffer of the least capacity, and all others have at least that. -/
theorem least_spec (t : Rack) :
    (∃ b ∈ t.toList, b.capacity = t.least) ∧ ∀ b ∈ t.toList, t.least ≤ b.capacity := by
  induction t with
  | one b => simp [toList, least]
  | fork l r hl hr =>
    obtain ⟨⟨a, ha, ha'⟩, hl⟩ := hl
    obtain ⟨⟨b, hb, hb'⟩, hr⟩ := hr
    have hm : (fork l r).least = min l.least r.least := by simp [least]
    constructor
    · rcases Nat.le_total l.least r.least with h | h
      · exact ⟨a, by simp [toList, ha], by omega⟩
      · exact ⟨b, by simp [toList, hb], by omega⟩
    · intro x hx
      rcases List.mem_append.1 hx with hx | hx
      · have := hl x hx
        omega
      · have := hr x hx
        omega

/-- There is a buffer of the greatest capacity, and all others have at most that. -/
theorem most_spec (t : Rack) :
    (∃ b ∈ t.toList, b.capacity = t.most) ∧ ∀ b ∈ t.toList, b.capacity ≤ t.most := by
  induction t with
  | one b => simp [toList, most]
  | fork l r hl hr =>
    obtain ⟨⟨a, ha, ha'⟩, hl⟩ := hl
    obtain ⟨⟨b, hb, hb'⟩, hr⟩ := hr
    have hm : (fork l r).most = max l.most r.most := by simp [most]
    constructor
    · rcases Nat.le_total l.most r.most with h | h
      · exact ⟨b, by simp [toList, hb], by omega⟩
      · exact ⟨a, by simp [toList, ha], by omega⟩
    · intro x hx
      rcases List.mem_append.1 hx with hx | hx
      · have := hl x hx
        omega
      · have := hr x hx
        omega

/-- **A rack offers what one of its buffers meets.** -/
theorem offers_iff (t : Rack) (w : Wish) :
    t.offers w = true ↔ ∃ b ∈ t.toList, w.meets b = true := by
  obtain ⟨⟨a, ha, ha'⟩, hl⟩ := t.least_spec
  obtain ⟨⟨b, hb, hb'⟩, hm⟩ := t.most_spec
  cases w with
  | atLeast size =>
    simp only [offers, Wish.meetsWithin, Wish.meets, decide_eq_true_eq]
    exact ⟨fun h => ⟨b, hb, hb' ▸ h⟩, fun ⟨x, hx, h⟩ => Nat.le_trans h (hm x hx)⟩
  | atMost size =>
    simp only [offers, Wish.meetsWithin, Wish.meets, decide_eq_true_eq]
    exact ⟨fun h => ⟨a, ha, ha' ▸ h⟩, fun ⟨x, hx, h⟩ => Nat.le_trans (hl x hx) h⟩

theorem not_offers_iff (t : Rack) (w : Wish) :
    t.offers w = false ↔ ∀ b ∈ t.toList, w.meets b = false := by
  rw [← Bool.not_eq_true, offers_iff]
  simp

/-- What is replaced is the first buffer that meets the wish. -/
theorem replaceFirst?_eq_some {w : Wish} {new b : Buffer} {t t' : Rack}
    (h : t.replaceFirst? w new = some (b, t')) :
    ∃ before after, t.toList = before ++ b :: after ∧ (∀ x ∈ before, w.meets x = false) ∧
      w.meets b = true ∧ t'.toList = before ++ new :: after := by
  induction t generalizing t' with
  | one a =>
    by_cases ha : w.meets a = true
    · simp only [replaceFirst?, ha, if_true, Option.some.injEq, Prod.mk.injEq] at h
      obtain ⟨rfl, rfl⟩ := h
      exact ⟨[], [], by simp [toList], by simp, ha, by simp [toList]⟩
    · simp [replaceFirst?, ha] at h
  | fork l r hl hr =>
    by_cases ho : l.offers w = true
    · simp only [replaceFirst?, ho, if_true, Option.map_eq_some_iff] at h
      obtain ⟨⟨c, l'⟩, hc, h⟩ := h
      obtain ⟨rfl, rfl⟩ := Prod.mk.inj h
      obtain ⟨before, after, h1, h2, h3, h4⟩ := hl hc
      exact ⟨before, after ++ r.toList, by simp [toList, h1], h2, h3, by simp [toList, h4]⟩
    · rw [replaceFirst?, if_neg ho, Option.map_eq_some_iff] at h
      obtain ⟨⟨c, r'⟩, hc, h⟩ := h
      obtain ⟨rfl, rfl⟩ := Prod.mk.inj h
      obtain ⟨before, after, h1, h2, h3, h4⟩ := hr hc
      have hn := (l.not_offers_iff w).1 (by simpa using ho)
      refine ⟨l.toList ++ before, after, by simp [toList, h1], ?_, h3, by simp [toList, h4]⟩
      intro x hx
      exact (List.mem_append.1 hx).elim (hn x) (h2 x)

theorem replaceFirst?_eq_none_iff {w : Wish} {new : Buffer} {t : Rack} :
    t.replaceFirst? w new = none ↔ ∀ x ∈ t.toList, w.meets x = false := by
  induction t with
  | one a => by_cases ha : w.meets a = true <;> simp [replaceFirst?, toList, ha]
  | fork l r hl hr =>
    by_cases ho : l.offers w = true
    · have hs : ¬ ∀ x ∈ l.toList, w.meets x = false := by
        rw [← not_offers_iff, ho]; simp
      simp only [replaceFirst?, ho, if_true, Option.map_eq_none_iff, hl, toList, List.mem_append]
      exact ⟨fun h => absurd h hs, fun h x hx => h x (.inl hx)⟩
    · have hn := (l.not_offers_iff w).1 (by simpa using ho)
      rw [replaceFirst?, if_neg ho, Option.map_eq_none_iff, hr]
      simp only [toList, List.mem_append]
      exact ⟨fun h x hx => hx.elim (hn x) (h x), fun h x hx => h x (.inr hx)⟩

end Rack

/-! ## 3. Shelves -/

/-- The free buffers of a pool. -/
structure Shelf where
  rack : Option Rack := none
  deriving DecidableEq

namespace Shelf

def empty : Shelf := {}

/-- **The buffers in order.** -/
def toList (s : Shelf) : List Buffer := (s.rack.map Rack.toList).getD []

def length (s : Shelf) : Nat := (s.rack.map Rack.length).getD 0

/-- **The shelf with one more buffer at its end.** -/
def push (s : Shelf) (b : Buffer) : Shelf := ⟨some ((s.rack.map (·.push b)).getD (.one b))⟩

def ofList (buffers : List Buffer) : Shelf := buffers.foldl push empty

/-- **The first buffer that meets a wish, and the shelf without it**: the last buffer moves into
the gap. -/
def takeFirst? (s : Shelf) (w : Wish) : Option (Buffer × Shelf) :=
  s.rack.bind fun rack =>
    let (rest, last) := rack.popLast
    match rest.bind (·.replaceFirst? w last) with
    | some (found, rack) => some (found, ⟨some rack⟩)
    | none => if w.meets last then some (last, ⟨rest⟩) else none

/-- **The first buffer of the least capacity, and the shelf without it.** -/
def takeSmallest? (s : Shelf) : Option (Buffer × Shelf) :=
  s.rack.bind fun rack => s.takeFirst? (.atMost rack.least)

/-- What stands behind a gap, with its last member moved to the front. -/
def closeGap (after : List Buffer) : List Buffer := after.getLast?.toList ++ after.dropLast

@[simp] theorem toList_empty : empty.toList = [] := rfl

@[simp] theorem length_toList (s : Shelf) : s.toList.length = s.length := by
  obtain ⟨_ | rack⟩ := s <;> simp [toList, length]

@[simp] theorem toList_push (s : Shelf) (b : Buffer) : (s.push b).toList = s.toList ++ [b] := by
  obtain ⟨_ | rack⟩ := s <;> simp [toList, push, Rack.toList]

theorem toList_foldl_push (buffers : List Buffer) (s : Shelf) :
    (buffers.foldl push s).toList = s.toList ++ buffers := by
  induction buffers generalizing s with
  | nil => simp
  | cons b buffers ih => rw [List.foldl_cons, ih, toList_push, List.append_assoc,
      List.singleton_append]

@[simp] theorem toList_ofList (buffers : List Buffer) : (ofList buffers).toList = buffers := by
  simp [ofList, toList_foldl_push]

@[simp] theorem closeGap_append (after : List Buffer) (last : Buffer) :
    closeGap (after ++ [last]) = last :: after := by
  simp [closeGap]

/-- **What is taken is the first buffer that meets the wish, and the last one closes the gap.** -/
theorem takeFirst?_eq_some {s t : Shelf} {w : Wish} {b : Buffer}
    (h : s.takeFirst? w = some (b, t)) :
    ∃ before after, s.toList = before ++ b :: after ∧ (∀ x ∈ before, w.meets x = false) ∧
      w.meets b = true ∧ t.toList = before ++ closeGap after := by
  obtain ⟨_ | rack⟩ := s
  · simp [takeFirst?] at h
  · have hp := rack.toList_popLast
    simp only [takeFirst?, Option.bind_some] at h
    generalize rack.popLast = popped at h hp
    obtain ⟨rest, last⟩ := popped
    split at h
    · next found rack' hf =>
      obtain ⟨rfl, rfl⟩ := Prod.mk.inj (Option.some.inj h)
      obtain ⟨rest, rfl, hf⟩ := Option.bind_eq_some_iff.1 hf
      obtain ⟨before, after, h1, h2, h3, h4⟩ := Rack.replaceFirst?_eq_some hf
      exact ⟨before, after ++ [last], by simp [toList, hp, h1], h2, h3, by simp [toList, h4]⟩
    · next hn =>
      by_cases hl : w.meets last = true
      · simp only [hl, if_true, Option.some.injEq, Prod.mk.injEq] at h
        obtain ⟨rfl, rfl⟩ := h
        refine ⟨(rest.map Rack.toList).getD [], [], by simp [toList, hp], ?_, hl,
          by simp [toList, closeGap]⟩
        cases rest with
        | none => simp
        | some rest => exact Rack.replaceFirst?_eq_none_iff.1 hn
      · simp [hl] at h

/-- Nothing is taken exactly if no buffer meets the wish. -/
theorem takeFirst?_eq_none_iff {s : Shelf} {w : Wish} :
    s.takeFirst? w = none ↔ ∀ x ∈ s.toList, w.meets x = false := by
  obtain ⟨_ | rack⟩ := s
  · simp [takeFirst?, toList]
  · have hp := rack.toList_popLast
    simp only [takeFirst?, Option.bind_some, toList, Option.map_some, Option.getD_some, hp]
    generalize rack.popLast = popped
    obtain ⟨rest, last⟩ := popped
    cases rest with
    | none => by_cases hl : w.meets last = true <;> simp [hl]
    | some rest =>
      cases hf : rest.replaceFirst? w last with
      | none =>
        have hr := Rack.replaceFirst?_eq_none_iff.1 hf
        by_cases hl : w.meets last = true
        · simp [hf, hl]
        · simp only [Option.bind_some, hf, hl, Option.map_some, Option.getD_some]
          simpa [or_imp, forall_and, hl] using hr
      | some found =>
        obtain ⟨before, after, h1, _, h3, _⟩ := Rack.replaceFirst?_eq_some hf
        have hx : ¬ ∀ x ∈ rest.toList ++ [last], w.meets x = false :=
          fun h => by simp [h found.1 (by simp [h1])] at h3
        simp only [Option.bind_some, hf, Option.map_some, Option.getD_some]
        exact iff_of_false (by simp) hx

/-- **What is taken as the smallest is the first buffer of the least capacity.** -/
theorem takeSmallest?_eq_some {s t : Shelf} {b : Buffer} (h : s.takeSmallest? = some (b, t)) :
    ∃ before after, s.toList = before ++ b :: after ∧
      (∀ x ∈ before, b.capacity < x.capacity) ∧ (∀ x ∈ after, b.capacity ≤ x.capacity) ∧
      t.toList = before ++ closeGap after := by
  obtain ⟨rack, hr, h⟩ := Option.bind_eq_some_iff.1 h
  obtain ⟨before, after, h1, h2, h3, h4⟩ := takeFirst?_eq_some h
  have hs : s.toList = rack.toList := by simp [toList, hr]
  have hl : ∀ x ∈ s.toList, rack.least ≤ x.capacity := by rw [hs]; exact rack.least_spec.2
  have hb : b.capacity = rack.least :=
    Nat.le_antisymm (by simpa [Wish.meets] using h3) (hl b (by simp [h1]))
  refine ⟨before, after, h1, fun x hx => ?_, fun x hx => ?_, h4⟩
  · simpa [Wish.meets, hb] using h2 x hx
  · exact hb ▸ hl x (by simp [h1, hx])

theorem takeSmallest?_eq_none_iff {s : Shelf} : s.takeSmallest? = none ↔ s.toList = [] := by
  obtain ⟨_ | rack⟩ := s
  · simp [takeSmallest?, toList]
  · obtain ⟨b, hb, hb'⟩ := rack.least_spec.1
    have hs : (⟨some rack⟩ : Shelf).toList = rack.toList := by simp [toList]
    simp only [takeSmallest?, Option.bind_some, takeFirst?_eq_none_iff, hs]
    constructor
    · intro h
      have := h b hb
      simp [Wish.meets, hb'] at this
    · intro h
      simp [h] at hb

end Shelf

end TraceRecorder
