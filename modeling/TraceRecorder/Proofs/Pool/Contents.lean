/-
# A buffer is two byte lists

Memory is never cleared, and a buffer in memory shows two byte lists all the same.  `Slab.Lies`
takes the memory apart: what is committed, what is pending, and the rest, which nobody sees.

* `BufferKeeper.Simulates` relates two keepers by a view of what they keep, one call at a time, and
  `Simulates.callAll` does so for any row of calls;
* `Buffer.simulates`: tapes are kept like two byte lists;
* `Slab.simulates`: memory is kept like tapes, whatever stands in the rest;
* `BufferContent.committed_isPrefix`: what is committed stays where it is.

`Slab.refines_contents` puts them together.
-/
import TraceRecorder.Pool.BufferCalls

namespace TraceRecorder

theorem Bytes.overwrite_between {front middle behind patch : Bytes}
    (h : middle.length = patch.length) :
    overwrite (front ++ (middle ++ behind)) front.length patch = front ++ (patch ++ behind) := by
  rw [overwrite_append, overwrite_of_length_le (Nat.le_refl _), Nat.sub_self, List.drop_zero,
    overwrite_append, overwrite_of_length_eq h, h, Nat.sub_zero, List.drop_length]
  rfl

/-- **Bytes are written over a range**, and nothing else changes. -/
theorem Bytes.overwrite_eq {bytes patch : Bytes} {start : Nat}
    (h : start + patch.length ≤ bytes.length) :
    overwrite bytes start patch =
      bytes.take start ++ (patch ++ bytes.drop (start + patch.length)) := by
  have parts : bytes = bytes.take start ++
      ((bytes.drop start).take patch.length ++ bytes.drop (start + patch.length)) := by
    rw [← List.drop_drop, List.take_append_drop, List.take_append_drop]
  have front : (bytes.take start).length = start := List.length_take_of_le (by omega)
  have middle : ((bytes.drop start).take patch.length).length = patch.length := by
    rw [List.length_take, List.length_drop]
    omega
  calc overwrite bytes start patch
      = overwrite (bytes.take start ++ ((bytes.drop start).take patch.length ++
          bytes.drop (start + patch.length))) (bytes.take start).length patch := by
        rw [← parts, front]
    _ = _ := overwrite_between middle

/-! ## 1. Keepers that agree -/

namespace BufferKeeper

variable {β γ : Type} {k : BufferKeeper β} {l : BufferKeeper γ} {Good : β → Prop} {view : β → γ}
  {row row' : List β} {index other : Nat} {done : Bool}

theorem call_request_eq_some {request : BufferRequest} :
    k.call row (.request index request) = some (done, row') ↔
      ∃ b b', row[index]? = some b ∧ k.serve b request = some (done, b') ∧
        row' = row.set index b' := by
  simp only [call, Option.bind_eq_bind, Option.bind_eq_some_iff, Option.pure_def,
    Option.some.injEq, Prod.mk.injEq]
  constructor
  · rintro ⟨b, here, ⟨_, b'⟩, served, rfl, rfl⟩
    exact ⟨b, b', here, served, rfl⟩
  · rintro ⟨b, b', here, served, rfl⟩
    exact ⟨b, here, (done, b'), served, rfl, rfl⟩

theorem call_carry_eq_some :
    k.call row (.carry index other) = some (done, row') ↔
      index ≠ other ∧ ∃ b d b' d', row[index]? = some b ∧ row[other]? = some d ∧
        k.carry b d = some (done, b', d') ∧ row' = (row.set index b').set other d' := by
  by_cases same : index = other
  · simp [call, same]
  · simp only [call, if_neg same, Option.bind_eq_bind, Option.bind_eq_some_iff, Option.pure_def,
      Option.some.injEq, Prod.mk.injEq]
    constructor
    · rintro ⟨b, here, d, there, ⟨_, b', d'⟩, carried, rfl, rfl⟩
      exact ⟨same, b, d, b', d', here, there, carried, rfl⟩
    · rintro ⟨-, b, d, b', d', here, there, carried, rfl⟩
      exact ⟨b, here, d, there, (done, b', d'), carried, rfl, rfl⟩

theorem callAll_cons_eq_some {c : BufferCall} {calls : List BufferCall} {answers : List Bool} :
    k.callAll row (c :: calls) = some (answers, row') ↔
      ∃ done row₁ rest, k.call row c = some (done, row₁) ∧
        k.callAll row₁ calls = some (rest, row') ∧ answers = done :: rest := by
  simp only [callAll, Option.bind_eq_bind, Option.bind_eq_some_iff, Option.pure_def,
    Option.some.injEq, Prod.mk.injEq]
  constructor
  · rintro ⟨⟨done, row₁⟩, first, ⟨rest, _⟩, later, rfl, rfl⟩
    exact ⟨done, row₁, rest, first, later, rfl⟩
  · rintro ⟨done, row₁, rest, first, later, rfl⟩
    exact ⟨(done, row₁), first, (rest, row'), later, rfl, rfl⟩

/-- **One keeper does what another one does**, as far as a view shows it: whatever the other one
answers, this one answers too. -/
structure Simulates (k : BufferKeeper β) (l : BufferKeeper γ) (Good : β → Prop)
    (view : β → γ) : Prop where
  serve : ∀ b request done c', Good b → l.serve (view b) request = some (done, c') →
    ∃ b', k.serve b request = some (done, b') ∧ Good b' ∧ view b' = c'
  carry : ∀ b d done c' e', Good b → Good d → l.carry (view b) (view d) = some (done, c', e') →
    ∃ b' d', k.carry b d = some (done, b', d') ∧ Good b' ∧ Good d' ∧ view b' = c' ∧ view d' = e'

theorem forall_mem_set {b : β} (good : ∀ x ∈ row, Good x) (here : Good b)
    (index : Nat) : ∀ x ∈ row.set index b, Good x := by
  intro x hx
  rcases List.mem_or_eq_of_mem_set hx with hx | rfl
  · exact good x hx
  · exact here

theorem Simulates.call (h : Simulates k l Good view) {seen : List γ} {c : BufferCall}
    (good : ∀ b ∈ row, Good b) (run : l.call (row.map view) c = some (done, seen)) :
    ∃ row', k.call row c = some (done, row') ∧ (∀ b ∈ row', Good b) ∧ row'.map view = seen := by
  cases c with
  | request index request =>
    obtain ⟨_, c', found, served, rfl⟩ := call_request_eq_some.1 run
    rw [List.getElem?_map, Option.map_eq_some_iff] at found
    obtain ⟨b, here, rfl⟩ := found
    obtain ⟨b', serves, good', rfl⟩ :=
      h.serve b request done c' (good b (List.mem_of_getElem? here)) served
    exact ⟨row.set index b', call_request_eq_some.2 ⟨b, b', here, serves, rfl⟩,
      forall_mem_set good good' index, List.map_set⟩
  | carry index other =>
    obtain ⟨apart, _, _, c', e', found, found', carried, rfl⟩ := call_carry_eq_some.1 run
    rw [List.getElem?_map, Option.map_eq_some_iff] at found found'
    obtain ⟨b, here, rfl⟩ := found
    obtain ⟨d, there, rfl⟩ := found'
    obtain ⟨b', d', carries, good_b, good_d, rfl, rfl⟩ := h.carry b d done c' e'
      (good b (List.mem_of_getElem? here)) (good d (List.mem_of_getElem? there)) carried
    refine ⟨(row.set index b').set other d',
      call_carry_eq_some.2 ⟨apart, b, d, b', d', here, there, carries, rfl⟩,
      forall_mem_set (forall_mem_set good good_b index) good_d other, ?_⟩
    rw [List.map_set, List.map_set]

theorem Simulates.callAll (h : Simulates k l Good view) {seen : List γ} {calls : List BufferCall}
    {answers : List Bool} (good : ∀ b ∈ row, Good b)
    (run : l.callAll (row.map view) calls = some (answers, seen)) :
    ∃ row', k.callAll row calls = some (answers, row') ∧ (∀ b ∈ row', Good b) ∧
      row'.map view = seen := by
  induction calls generalizing row answers with
  | nil =>
    obtain ⟨rfl, rfl⟩ := Prod.mk.inj (Option.some.inj run)
    exact ⟨row, rfl, good, rfl⟩
  | cons c calls ih =>
    obtain ⟨done, _, rest, first, later, rfl⟩ := callAll_cons_eq_some.1 run
    obtain ⟨row₁, called, good₁, rfl⟩ := h.call good first
    obtain ⟨row₂, all, good₂, rfl⟩ := ih good₁ later
    exact ⟨row₂, callAll_cons_eq_some.2 ⟨done, row₁, rest, called, all, rfl⟩, good₂, rfl⟩

end BufferKeeper

/-! ## 2. Tapes -/

namespace Buffer

variable {b : Buffer}

theorem room_content (b : Buffer) : b.content.room = b.free := by
  simp [content, BufferContent.room, free, position]

/-- **A patch of pending bytes** replaces them and no others. -/
theorem content_patch {start : Nat} {bytes : Bytes} (covers : b.content.Covers start bytes.length) :
    (b.patch start bytes).content = { b.content with
      pending := b.pending.bytes.take (start - b.used) ++
        (bytes ++ b.pending.bytes.drop (start - b.used + bytes.length)) } := by
  obtain ⟨behind, within⟩ := covers
  simp only [content, Tape.length_bytes] at behind within
  have range : start - b.used + bytes.length ≤ b.pending.bytes.length := by
    rw [Tape.length_bytes, used]
    omega
  have all : bytes.drop (b.used - start) = bytes := by
    rw [used, Nat.sub_eq_zero_of_le behind, List.drop_zero]
  have committed : b.committed.bytes.length ≤ start := by rwa [Tape.length_bytes]
  simp only [content, patch, Tape.bytes_overwrite, all, Bytes.overwrite_of_length_le committed,
    Bytes.overwrite_eq range]

theorem content_commit (b : Buffer) (count : Nat) :
    (b.commit count).content = { b.content with
      committed := b.committed.bytes ++ b.pending.bytes.take (min count b.pending.bytes.length)
      pending := b.pending.bytes.drop (min count b.pending.bytes.length) } := by
  have rest : b.pending.bytes.drop (min count b.pending.bytes.length) =
      b.pending.bytes.drop count := by
    rcases Nat.le_total count b.pending.bytes.length with few | many
    · rw [Nat.min_eq_left few]
    · rw [Nat.min_eq_right many, List.drop_length, List.drop_of_length_le many]
  simp only [content, commit, Tape.bytes_join, Tape.bytes_take, Tape.bytes_drop, rest,
    ← List.take_eq_take_min]

/-- What is served on tapes is served on two byte lists. -/
theorem serve_content (b : Buffer) (request : BufferRequest) :
    BufferContent.keeper.serve b.content request =
      (keeper.serve b request).map fun answer => (answer.1, answer.2.content) := by
  cases request with
  | append bytes =>
    by_cases fits : bytes.length ≤ b.free
    · have room : bytes.length ≤ b.content.room := by rwa [room_content]
      simp only [BufferContent.keeper, if_pos room]
      simp [keeper, append?, Nat.not_lt.2 fits, content]
    · simp [BufferContent.keeper, keeper, append?, room_content, fits, Nat.lt_of_not_le fits]
  | patch start bytes =>
    by_cases covers : b.content.Covers start.toNat bytes.length
    · simp only [BufferContent.keeper, keeper, if_pos covers, Option.map_some,
        content_patch covers]
      simp [content, used]
    · simp only [BufferContent.keeper, keeper, if_neg covers, Option.map_none]
  | commit count =>
    simp only [BufferContent.keeper, keeper, Option.map_some, content_commit]
    rfl
  | commitAll => simp [BufferContent.keeper, keeper, commitAll, content]
  | rewind => simp [BufferContent.keeper, keeper, rewind, content]
  | lease epoch owner =>
    simp [BufferContent.keeper, keeper, Buffer.reinitialize, content]

theorem carry_content (b other : Buffer) :
    BufferContent.keeper.carry b.content other.content =
      (keeper.carry b other).map fun answer =>
        (answer.1, answer.2.1.content, answer.2.2.content) := by
  have length : other.content.pending.length = other.pending.length := Tape.length_bytes _
  by_cases fits : other.pending.length ≤ b.free
  · have room : other.content.pending.length ≤ b.content.room := by rwa [length, room_content]
    simp only [BufferContent.keeper, if_pos room]
    simp [keeper, carry?, append?, Nat.not_lt.2 fits, content, rewind]
  · simp [BufferContent.keeper, keeper, carry?, append?, room_content, length, fits,
      Nat.lt_of_not_le fits]

/-- **Tapes are kept like two byte lists.** -/
theorem simulates : keeper.Simulates BufferContent.keeper (fun _ => True) content where
  serve b request done c' _ run := by
    rw [serve_content, Option.map_eq_some_iff] at run
    obtain ⟨⟨_, b'⟩, served, same⟩ := run
    obtain ⟨rfl, rfl⟩ := Prod.mk.inj same
    exact ⟨b', served, trivial, rfl⟩
  carry b other done c' e' _ _ run := by
    rw [carry_content, Option.map_eq_some_iff] at run
    obtain ⟨⟨_, b', other'⟩, carried, same⟩ := run
    simp only [Prod.mk.injEq] at same
    obtain ⟨rfl, rfl, rfl⟩ := same
    exact ⟨b', other', carried, trivial, trivial, rfl, rfl⟩

end Buffer

/-! ## 3. Memory -/

namespace Slab

variable {s other : Slab} {c p rest bytes : Bytes} {start : UInt64}

/-- The cursors stand in order, within memory whose length is a word. -/
structure Sound (s : Slab) : Prop where
  committed_le : s.committed ≤ s.position
  position_le : s.position ≤ s.capacity
  word : s.memory.length < UInt64.size

theorem sound_allocate {capacity : Nat} (id : BufferId) (kind : BufferKind)
    (h : capacity < UInt64.size) : (allocate id capacity kind).Sound where
  committed_le := UInt64.le_refl _
  position_le := UInt64.zero_le
  word := by simpa [allocate] using h

/-- **How memory is divided**: committed bytes, pending bytes, and a rest that is not shown. -/
structure Lies (s : Slab) (c p rest : Bytes) : Prop where
  memory : s.memory.bytes = c ++ (p ++ rest)
  committed : s.committed.toNat = c.length
  position : s.position.toNat = c.length + p.length
  word : s.memory.length < UInt64.size

theorem Lies.length (h : s.Lies c p rest) :
    s.memory.length = c.length + p.length + rest.length := by
  rw [← Tape.length_bytes, h.memory, List.length_append, List.length_append, Nat.add_assoc]

theorem Lies.capacity (h : s.Lies c p rest) :
    s.capacity.toNat = c.length + p.length + rest.length := by
  rw [Slab.capacity, UInt64.toNat_ofNat_of_lt' h.word, h.length]

theorem Lies.sound (h : s.Lies c p rest) : s.Sound where
  committed_le := by
    rw [UInt64.le_iff_toNat_le, h.committed, h.position]
    exact Nat.le_add_right _ _
  position_le := by
    rw [UInt64.le_iff_toNat_le, h.position, h.capacity]
    exact Nat.le_add_right _ _
  word := h.word

/-- What lies behind the bytes that are shown. -/
def leftover (s : Slab) : Bytes := s.memory.bytes.drop s.position.toNat

theorem Sound.lies (h : s.Sound) :
    s.Lies s.buffer.committed.bytes s.buffer.pending.bytes s.leftover := by
  have capacity : s.capacity.toNat = s.memory.length := UInt64.toNat_ofNat_of_lt' h.word
  have committed_le := UInt64.le_iff_toNat_le.1 h.committed_le
  have position_le := UInt64.le_iff_toNat_le.1 h.position_le
  rw [capacity] at position_le
  have committed : s.buffer.committed.bytes.length = s.committed.toNat := by
    rw [buffer, Tape.bytes_take, List.length_take, Tape.length_bytes]
    omega
  have pending : s.buffer.pending.bytes.length = s.position.toNat - s.committed.toNat := by
    rw [buffer, Tape.bytes_drop, Tape.bytes_take, List.length_drop, List.length_take,
      Tape.length_bytes, Nat.min_eq_left position_le]
  refine ⟨?_, committed.symm, by omega, h.word⟩
  have front : (s.memory.bytes.take s.position.toNat).take s.committed.toNat =
      s.memory.bytes.take s.committed.toNat := by
    rw [List.take_take, Nat.min_eq_left committed_le]
  rw [buffer, Tape.bytes_take, Tape.bytes_drop, Tape.bytes_take, leftover, ← front,
    ← List.append_assoc, List.take_append_drop, List.take_append_drop]

/-- **The bytes that show are the committed and the pending ones.** -/
theorem Lies.shown (h : s.Lies c p rest) :
    s.buffer.committed.bytes = c ∧ s.buffer.pending.bytes = p := by
  constructor
  · rw [buffer, Tape.bytes_take, h.memory, h.committed, List.take_left]
  · rw [buffer, Tape.bytes_drop, Tape.bytes_take, h.memory, h.committed, h.position,
      ← List.append_assoc, List.take_left' List.length_append, List.drop_left]

theorem Lies.buffer_eq (h : s.Lies c p rest) {b : Buffer} (committed : b.committed.bytes = c)
    (pending : b.pending.bytes = p) (capacity : b.capacity = s.memory.length)
    (others : (b.id, b.epoch, b.owner, b.kind, b.retired) =
      (s.id, s.epoch, s.owner, s.kind, s.retired)) : s.buffer = b := by
  have front : s.buffer.committed = b.committed :=
    Tape.eq_of_bytes_eq (h.shown.1.trans committed.symm)
  have middle : s.buffer.pending = b.pending := Tape.eq_of_bytes_eq (h.shown.2.trans pending.symm)
  obtain ⟨id, size, _, _, epoch, owner, kind, retired⟩ := b
  simp only [Prod.mk.injEq] at others
  obtain ⟨rfl, rfl, rfl, rfl, rfl⟩ := others
  simp_all [buffer]

theorem Lies.free (h : s.Lies c p rest) : s.free.toNat = rest.length := by
  rw [Slab.free, UInt64.toNat_sub_of_le _ _ h.sound.position_le, h.capacity, h.position]
  omega

theorem Lies.pendingLength (h : s.Lies c p rest) : s.pendingLength.toNat = p.length := by
  rw [Slab.pendingLength, UInt64.toNat_sub_of_le _ _ h.sound.committed_le, h.position,
    h.committed]
  omega

theorem toNat_stop (h : start.toNat + bytes.length < UInt64.size) :
    (start + UInt64.ofNat bytes.length).toNat = start.toNat + bytes.length := by
  have length : bytes.length < UInt64.size := by omega
  rw [UInt64.toNat_add, UInt64.toNat_ofNat_of_lt' length]
  exact Nat.mod_eq_of_lt h

/-- **What fits into memory is written.** -/
theorem write?_eq (word : s.memory.length < UInt64.size)
    (fits : start.toNat + bytes.length ≤ s.memory.length) :
    s.write? start bytes = some { s with memory := s.memory.overwrite start.toNat bytes } := by
  have stop := toNat_stop (Nat.lt_of_le_of_lt fits word)
  have capacity : s.capacity.toNat = s.memory.length := UInt64.toNat_ofNat_of_lt' word
  refine if_pos ⟨?_, ?_⟩
  · rw [UInt64.le_iff_toNat_le, stop]
    exact Nat.le_add_right _ _
  · rwa [UInt64.le_iff_toNat_le, stop, capacity]

/-- **Bytes that fit are written behind the pending ones**, over the rest. -/
theorem Lies.append (h : s.Lies c p rest) (fits : bytes.length ≤ rest.length) :
    ∃ s', s.append? bytes = some (true, s') ∧ s'.Lies c (p ++ bytes) (rest.drop bytes.length) ∧
      s'.buffer = { s.buffer with pending := s.buffer.pending.append bytes } := by
  have range : s.position.toNat + bytes.length ≤ s.memory.length := by
    rw [h.position, h.length]
    omega
  have lies : Lies { s with
      memory := s.memory.overwrite s.position.toNat bytes
      position := s.position + UInt64.ofNat bytes.length } c (p ++ bytes)
      (rest.drop bytes.length) := by
    refine ⟨?_, h.committed, ?_, by simpa using h.word⟩
    · have parts : s.memory.bytes =
          (c ++ p) ++ (rest.take bytes.length ++ rest.drop bytes.length) := by
        rw [List.take_append_drop, List.append_assoc, h.memory]
      have position : s.position.toNat = (c ++ p).length := by rw [h.position, List.length_append]
      rw [Tape.bytes_overwrite, parts, position,
        Bytes.overwrite_between (List.length_take_of_le fits), List.append_assoc, List.append_assoc]
    · rw [toNat_stop (Nat.lt_of_le_of_lt range h.word), h.position, List.length_append,
        Nat.add_assoc]
  refine ⟨_, ?_, lies, ?_⟩
  · rw [append?, if_neg (by rw [h.free]; exact Nat.not_lt.2 fits), write?_eq h.word range,
      Option.map_some]
  · exact lies.buffer_eq (h.shown.1) (by rw [Tape.bytes_append, h.shown.2]) (by simp [buffer]) rfl

/-- **Bytes that do not fit change nothing.** -/
theorem Lies.append_refused (h : s.Lies c p rest) (more : rest.length < bytes.length) :
    s.append? bytes = some (false, s) := if_pos (by rwa [h.free])

/-- **Pending bytes are replaced** by as many others. -/
theorem Lies.patch (h : s.Lies c p rest) (behind : c.length ≤ start.toNat)
    (within : start.toNat + bytes.length ≤ c.length + p.length) :
    ∃ s', s.patch? start bytes = some s' ∧
      s'.Lies c (Bytes.overwrite p (start.toNat - c.length) bytes) rest ∧
      s'.buffer = s.buffer.patch start.toNat bytes := by
  have range : start.toNat + bytes.length ≤ s.memory.length := by
    rw [h.length]
    omega
  have all : bytes.drop (c.length - start.toNat) = bytes := by
    rw [Nat.sub_eq_zero_of_le behind, List.drop_zero]
  have none : bytes.drop (p.length - (start.toNat - c.length)) = [] :=
    List.drop_of_length_le (by omega)
  have lies : Lies { s with memory := s.memory.overwrite start.toNat bytes } c
      (Bytes.overwrite p (start.toNat - c.length) bytes) rest := by
    refine ⟨?_, h.committed, by simpa using h.position, by simpa using h.word⟩
    rw [Tape.bytes_overwrite, h.memory, Bytes.overwrite_append,
      Bytes.overwrite_of_length_le behind, all, Bytes.overwrite_append, none]
    rfl
  refine ⟨_, write?_eq h.word range, lies,
    lies.buffer_eq ?_ ?_ (by simp [buffer, Buffer.patch]) rfl⟩
  · rw [Buffer.patch, Tape.bytes_overwrite, h.shown.1, Bytes.overwrite_of_length_le behind]
  · rw [Buffer.patch, Buffer.used, Tape.bytes_overwrite, ← Tape.length_bytes, h.shown.1, h.shown.2,
      all]

/-- **Pending bytes become committed**, as many as there are at most. -/
theorem Lies.commit (h : s.Lies c p rest) (count : UInt64) :
    (s.commit count).Lies (c ++ p.take count.toNat) (p.drop count.toNat) rest := by
  have fewer : (p.take count.toNat).length = min count.toNat p.length := List.length_take
  have step : (if count ≤ s.pendingLength then count else s.pendingLength).toNat =
      min count.toNat p.length := by
    split
    · rename_i few
      rw [UInt64.le_iff_toNat_le, h.pendingLength] at few
      rw [Nat.min_eq_left few]
    · rename_i many
      rw [UInt64.le_iff_toNat_le, h.pendingLength] at many
      rw [h.pendingLength, Nat.min_eq_right (Nat.le_of_not_le many)]
  have length := h.length
  have word := h.word
  refine ⟨?_, ?_, ?_, h.word⟩
  · rw [List.append_assoc, ← List.append_assoc (p.take _), List.take_append_drop]
    exact h.memory
  · rw [Slab.commit, UInt64.toNat_add, step, h.committed, List.length_append, fewer]
    exact Nat.mod_eq_of_lt (Nat.lt_of_le_of_lt (by omega) word)
  · rw [List.length_append, fewer, List.length_drop]
    exact h.position.trans (by omega)

theorem Lies.commitAll (h : s.Lies c p rest) : s.commitAll.Lies (c ++ p) [] rest where
  memory := by
    rw [List.nil_append, List.append_assoc]
    exact h.memory
  committed := by
    rw [List.length_append]
    exact h.position
  position := by
    rw [List.length_append]
    exact h.position
  word := h.word

theorem Lies.rewind (h : s.Lies c p rest) : s.rewind.Lies c [] (p ++ rest) where
  memory := h.memory
  committed := h.committed
  position := h.committed
  word := h.word

theorem Lies.lease (h : s.Lies c p rest) (epoch : Epoch) (owner : Owner) :
    (s.lease epoch owner).Lies [] [] (c ++ (p ++ rest)) where
  memory := h.memory
  committed := rfl
  position := rfl
  word := h.word

/-! ## 4. Memory that is kept like tapes -/

theorem Lies.reads (h : s.Lies c p rest) :
    s.committed? = some s.buffer.committed ∧ s.pending? = some s.buffer.pending := by
  have front : (0 : UInt64) ≤ s.committed := UInt64.zero_le
  have sound := h.sound
  refine ⟨?_, if_pos ⟨sound.committed_le, sound.position_le⟩⟩
  rw [committed?, slice?, if_pos ⟨front, UInt64.le_trans sound.committed_le sound.position_le⟩]
  refine congrArg some (Tape.eq_of_bytes_eq ?_)
  simp [buffer]

theorem Sound.append (h : s.Sound) (bytes : Bytes) :
    ∃ s', s.append? bytes = some ((s.buffer.append? bytes).isSome, s') ∧ s'.Sound ∧
      s'.buffer = (s.buffer.append? bytes).getD s.buffer := by
  have lies := h.lies
  have free : s.buffer.free = s.leftover.length := by
    have length := lies.length
    simp only [Buffer.free, Buffer.position, ← Tape.length_bytes]
    have capacity : s.buffer.capacity = s.memory.length := rfl
    omega
  by_cases fits : bytes.length ≤ s.leftover.length
  · obtain ⟨s', appended, lies', shows⟩ := lies.append fits
    have grown : s.buffer.append? bytes =
        some { s.buffer with pending := s.buffer.pending.append bytes } :=
      if_neg (by rw [free]; exact Nat.not_lt.2 fits)
    rw [grown]
    exact ⟨s', appended, lies'.sound, shows⟩
  · have refused : s.buffer.append? bytes = none :=
      if_pos (by rw [free]; exact Nat.lt_of_not_le fits)
    rw [refused]
    exact ⟨s, lies.append_refused (Nat.lt_of_not_le fits), h, rfl⟩

/-- **Memory is kept like tapes**, whatever stands in the rest. -/
theorem simulates : keeper.Simulates Buffer.keeper Sound buffer where
  serve s request done b' sound run := by
    have lies := sound.lies
    cases request with
    | append bytes =>
      obtain ⟨s', appended, sound', shows⟩ := sound.append bytes
      cases grown : s.buffer.append? bytes with
      | none =>
        simp only [Buffer.keeper, grown, Option.some.injEq, Prod.mk.injEq] at run
        obtain ⟨rfl, rfl⟩ := run
        exact ⟨s', by rwa [grown] at appended, sound', by rw [shows, grown]; rfl⟩
      | some b =>
        simp only [Buffer.keeper, grown, Option.some.injEq, Prod.mk.injEq] at run
        obtain ⟨rfl, rfl⟩ := run
        exact ⟨s', by rwa [grown] at appended, sound', by rw [shows, grown]; rfl⟩
    | patch start bytes =>
      by_cases covers : s.buffer.content.Covers start.toNat bytes.length
      · simp only [Buffer.keeper, if_pos covers, Option.some.injEq, Prod.mk.injEq] at run
        obtain ⟨rfl, rfl⟩ := run
        obtain ⟨s', patched, lies', shows⟩ := lies.patch covers.1 covers.2
        exact ⟨s', by simp [keeper, patched], lies'.sound, shows⟩
      · simp [Buffer.keeper, covers] at run
    | commit count =>
      obtain ⟨rfl, rfl⟩ := Prod.mk.inj (Option.some.inj run)
      have lies' := lies.commit count
      exact ⟨_, rfl, lies'.sound, lies'.buffer_eq (by simp [Buffer.commit])
        (by simp [Buffer.commit]) rfl rfl⟩
    | commitAll =>
      obtain ⟨rfl, rfl⟩ := Prod.mk.inj (Option.some.inj run)
      have lies' := lies.commitAll
      exact ⟨_, rfl, lies'.sound, lies'.buffer_eq (by simp [Buffer.commitAll])
        (by simp [Buffer.commitAll]) rfl rfl⟩
    | rewind =>
      obtain ⟨rfl, rfl⟩ := Prod.mk.inj (Option.some.inj run)
      have lies' := lies.rewind
      exact ⟨_, rfl, lies'.sound, lies'.buffer_eq rfl rfl rfl rfl⟩
    | lease epoch owner =>
      obtain ⟨rfl, rfl⟩ := Prod.mk.inj (Option.some.inj run)
      have lies' := lies.lease epoch owner
      exact ⟨_, rfl, lies'.sound, lies'.buffer_eq rfl rfl rfl rfl⟩
  carry s other done b' d' sound sound' run := by
    obtain ⟨grown, appended, good, shows⟩ := sound.append other.buffer.pending.bytes
    have taken : other.pending? = some other.buffer.pending := sound'.lies.reads.2
    have lies' := sound'.lies.rewind
    have rewound : other.rewind.buffer = other.buffer.rewind := lies'.buffer_eq rfl rfl rfl rfl
    cases fits : s.buffer.append? other.buffer.pending.bytes with
    | none =>
      have refused : keeper.carry s other = some (false, grown, other) := by
        simp [keeper, carry?, taken, appended, fits]
      simp only [Buffer.keeper, Buffer.carry?, fits, Option.map_none, Option.some.injEq,
        Prod.mk.injEq] at run
      obtain ⟨rfl, rfl, rfl⟩ := run
      exact ⟨grown, other, refused, good, sound', by rw [shows, fits]; rfl, rfl⟩
    | some b =>
      have carried : keeper.carry s other = some (true, grown, other.rewind) := by
        simp [keeper, carry?, taken, appended, fits]
      simp only [Buffer.keeper, Buffer.carry?, fits, Option.map_some, Option.some.injEq,
        Prod.mk.injEq] at run
      obtain ⟨rfl, rfl, rfl⟩ := run
      exact ⟨grown, other.rewind, carried, good, lies'.sound, by rw [shows, fits]; rfl, rewound⟩

theorem Sound.content?_eq (h : s.Sound) : s.content? = some s.buffer.content := by
  have capacity : s.capacity.toNat = s.memory.length := UInt64.toNat_ofNat_of_lt' h.word
  simp [content?, h.lies.reads, capacity, Buffer.content, buffer]

/-- **A call that is refused changes no memory.** -/
theorem call_refused {row row' : List Slab} {call : BufferCall}
    (run : keeper.call row call = some (false, row')) : row' = row := by
  have same : ∀ {index : Nat} {s : Slab}, row[index]? = some s → row.set index s = row := by
    intro index s here
    obtain ⟨bound, rfl⟩ := List.getElem?_eq_some_iff.1 here
    exact List.set_getElem_self bound
  have refused : ∀ {s s' : Slab} {bytes : Bytes}, s.append? bytes = some (false, s') → s' = s := by
    intro s s' bytes h
    rw [append?] at h
    split at h
    · simpa using h.symm
    · simp at h
  cases call with
  | request index request =>
    obtain ⟨s, s', here, served, rfl⟩ := BufferKeeper.call_request_eq_some.1 run
    cases request with
    | append bytes => rw [refused served, same here]
    | patch start bytes => simp [keeper] at served
    | commit | commitAll | rewind | lease => simp [keeper] at served
  | carry index other =>
    obtain ⟨-, s, d, s', d', here, there, carried, rfl⟩ := BufferKeeper.call_carry_eq_some.1 run
    simp only [keeper, carry?, Option.bind_eq_bind, Option.bind_eq_some_iff, Option.pure_def,
      Option.some.injEq, Prod.mk.injEq] at carried
    obtain ⟨bytes, -, ⟨_, _⟩, appended, rfl, rfl, rfl⟩ := carried
    rw [refused appended, same here, if_neg Bool.false_ne_true, same there]

end Slab

/-! ## 5. What stays and what goes -/

namespace BufferContent

variable {b b' d d' : BufferContent} {row row' : List BufferContent} {index : Nat}
  {calls : List BufferCall} {done : Bool} {answers : List Bool}

def Kept (index : Nat) (calls : List BufferCall) : Prop :=
  ∀ epoch owner, .request index (.lease epoch owner) ∉ calls

/-- Only a new lease takes committed bytes away. -/
theorem serve_committed_isPrefix {request : BufferRequest}
    (same : ∀ epoch owner, request ≠ .lease epoch owner)
    (run : keeper.serve b request = some (done, b')) : b.committed <+: b'.committed := by
  cases request with
  | append bytes =>
    simp only [keeper, Option.some.injEq] at run
    split at run <;> · obtain ⟨rfl, rfl⟩ := run; exact List.prefix_refl _
  | patch start bytes =>
    simp only [keeper] at run
    split at run
    · obtain ⟨rfl, rfl⟩ := Prod.mk.inj (Option.some.inj run)
      exact List.prefix_refl _
    · cases run
  | commit | commitAll =>
    obtain ⟨rfl, rfl⟩ := Prod.mk.inj (Option.some.inj run)
    exact List.prefix_append _ _
  | rewind =>
    obtain ⟨rfl, rfl⟩ := Prod.mk.inj (Option.some.inj run)
    exact List.prefix_refl _
  | lease epoch owner => exact (same epoch owner rfl).elim

theorem carry_committed (run : keeper.carry b d = some (done, b', d')) :
    b'.committed = b.committed ∧ d'.committed = d.committed := by
  simp only [keeper, Option.some.injEq] at run
  split at run <;> · obtain ⟨rfl, rfl, rfl⟩ := run; exact ⟨rfl, rfl⟩

theorem set_committed_isPrefix {place : Nat} (found : row[place]? = some d)
    (grows : d.committed <+: d'.committed) (here : row[index]? = some b) :
    ∃ b', (row.set place d')[index]? = some b' ∧ b.committed <+: b'.committed := by
  by_cases same : place = index
  · subst same
    obtain rfl : d = b := Option.some.inj (found.symm.trans here)
    exact ⟨d', List.getElem?_set_self (List.getElem?_eq_some_iff.1 here).1, grows⟩
  · exact ⟨b, by rwa [List.getElem?_set_ne same], List.prefix_refl _⟩

theorem call_committed_isPrefix {call : BufferCall}
    (same : ∀ epoch owner, call ≠ .request index (.lease epoch owner))
    (run : keeper.call row call = some (done, row')) (here : row[index]? = some b) :
    ∃ b', row'[index]? = some b' ∧ b.committed <+: b'.committed := by
  cases call with
  | request place request =>
    obtain ⟨c, c', found, served, rfl⟩ := BufferKeeper.call_request_eq_some.1 run
    by_cases this : place = index
    · subst this
      exact set_committed_isPrefix found
        (serve_committed_isPrefix (fun epoch owner equal => same epoch owner (equal ▸ rfl)) served)
        here
    · exact ⟨b, by rwa [List.getElem?_set_ne this], List.prefix_refl _⟩
  | carry one other =>
    obtain ⟨apart, c, e, c', e', found, found', carried, rfl⟩ :=
      BufferKeeper.call_carry_eq_some.1 run
    obtain ⟨first, second⟩ := carry_committed carried
    obtain ⟨b₁, here₁, grows⟩ :=
      set_committed_isPrefix found ⟨[], by rw [List.append_nil, first]⟩ here
    have there : (row.set one c')[other]? = some e := by rwa [List.getElem?_set_ne apart]
    obtain ⟨b₂, here₂, grows'⟩ :=
      set_committed_isPrefix there ⟨[], by rw [List.append_nil, second]⟩ here₁
    exact ⟨b₂, here₂, grows.trans grows'⟩

/-- **Committed bytes stay where they are** as long as no new lease begins. -/
theorem committed_isPrefix (kept : Kept index calls)
    (run : keeper.callAll row calls = some (answers, row')) (here : row[index]? = some b) :
    ∃ b', row'[index]? = some b' ∧ b.committed <+: b'.committed := by
  induction calls generalizing row b answers with
  | nil =>
    obtain ⟨rfl, rfl⟩ := Prod.mk.inj (Option.some.inj run)
    exact ⟨b, here, List.prefix_refl _⟩
  | cons c calls ih =>
    obtain ⟨done, row₁, rest, first, later, rfl⟩ := BufferKeeper.callAll_cons_eq_some.1 run
    obtain ⟨b₁, here₁, grows⟩ := call_committed_isPrefix
      (fun epoch owner equal => kept epoch owner (equal ▸ List.mem_cons_self)) first here
    obtain ⟨b₂, here₂, grows'⟩ := ih
      (fun epoch owner mem => kept epoch owner (List.mem_cons_of_mem _ mem)) later here₁
    exact ⟨b₂, here₂, grows.trans grows'⟩

/-- **A new lease forgets** what the buffer showed. -/
theorem callAll_set_lease (here : row[index]? = some b) (capacity : d.capacity = b.capacity)
    (epoch : Epoch) (owner : Owner) (calls : List BufferCall) :
    keeper.callAll (row.set index d) (.request index (.lease epoch owner) :: calls) =
      keeper.callAll row (.request index (.lease epoch owner) :: calls) := by
  have bound : index < row.length := (List.getElem?_eq_some_iff.1 here).1
  have there : (row.set index d)[index]? = some d := List.getElem?_set_self bound
  simp [BufferKeeper.callAll, BufferKeeper.call, keeper, here, there, capacity]

end BufferContent

/-! ## 6. Slabs and their contents -/

namespace Slab

theorem map_content? {slabs : List Slab} (sound : ∀ s ∈ slabs, s.Sound) :
    slabs.map content? = ((slabs.map buffer).map Buffer.content).map some := by
  rw [List.map_map, List.map_map]
  exact List.map_congr_left fun s hs => (sound s hs).content?_eq

theorem eq_of_map_content? {slabs : List Slab} {before : List BufferContent}
    (sound : ∀ s ∈ slabs, s.Sound) (shown : slabs.map content? = before.map some) :
    before = (slabs.map buffer).map Buffer.content := by
  rw [map_content? sound] at shown
  exact ((List.map_inj_right fun _ _ => Option.some.inj).1 shown).symm

/-- **What slabs show is kept like byte lists.** -/
theorem callAll_content {slabs : List Slab} {calls : List BufferCall} {answers : List Bool}
    {before after : List BufferContent} (sound : ∀ s ∈ slabs, s.Sound)
    (shown : slabs.map content? = before.map some)
    (run : BufferContent.keeper.callAll before calls = some (answers, after)) :
    ∃ slabs', keeper.callAll slabs calls = some (answers, slabs') ∧ (∀ s ∈ slabs', s.Sound) ∧
      slabs'.map content? = after.map some ∧
      Buffer.keeper.callAll (slabs.map buffer) calls = some (answers, slabs'.map buffer) := by
  obtain rfl := eq_of_map_content? sound shown
  obtain ⟨tapes, tapes_run, -, rfl⟩ := Buffer.simulates.callAll (fun _ _ => trivial) run
  obtain ⟨slabs', slabs_run, sound', rfl⟩ := simulates.callAll sound tapes_run
  exact ⟨slabs', slabs_run, sound', map_content? sound', tapes_run⟩

/-- **What was in memory before a lease has no part in it.** -/
theorem callAll_set_lease {slabs : List Slab} {calls : List BufferCall} {answers : List Bool}
    {before after : List BufferContent} {index : Nat} {epoch : Epoch} {owner : Owner}
    (sound : ∀ s ∈ slabs, s.Sound) (shown : slabs.map content? = before.map some)
    (run : BufferContent.keeper.callAll before
      (.request index (.lease epoch owner) :: calls) = some (answers, after))
    (here : slabs[index]? = some s) (good : other.Sound) (capacity : other.capacity = s.capacity) :
    ∃ row, keeper.callAll (slabs.set index other)
        (.request index (.lease epoch owner) :: calls) = some (answers, row) ∧
      row.map content? = after.map some := by
  have good_s := sound s (List.mem_of_getElem? here)
  obtain rfl := eq_of_map_content? sound shown
  have length : other.buffer.content.capacity = s.buffer.content.capacity := by
    have words := congrArg UInt64.toNat capacity
    rwa [Slab.capacity, Slab.capacity, UInt64.toNat_ofNat_of_lt' good.word,
      UInt64.toNat_ofNat_of_lt' good_s.word] at words
  have here' : ((slabs.map buffer).map Buffer.content)[index]? = some s.buffer.content := by
    simp [here]
  rw [← BufferContent.callAll_set_lease here' length] at run
  have shown' : (slabs.set index other).map content? =
      (((slabs.map buffer).map Buffer.content).set index other.buffer.content).map some := by
    rw [List.map_set, List.map_set, map_content? sound, good.content?_eq]
  obtain ⟨row, row_run, -, reads, -⟩ :=
    callAll_content (BufferKeeper.forall_mem_set sound good index) shown' run
  exact ⟨row, row_run, reads⟩

/-- **A buffer in memory is two byte lists.**  Calls on slabs are answered as on the byte lists that
they show, and the slabs show what the byte lists become then.  The cursors stay in order, and a
call that is refused changes nothing.  Committed bytes stay where they are until a new lease begins,
and nothing that was in memory then is shown after that.

Memory is never cleared, neither when pending bytes are given up nor when a buffer gets a new lease.
So the last part is about any other slab of the same size, whatever its memory has: put in the place
of one that gets a new lease, it answers all later calls alike and shows the same in the end. -/
theorem refines_contents {slabs : List Slab} {calls : List BufferCall} {answers : List Bool}
    {before after : List BufferContent} (sound : ∀ s ∈ slabs, s.Sound)
    (shown : slabs.map content? = before.map some)
    (run : BufferContent.keeper.callAll before calls = some (answers, after)) :
    ∃ slabs', keeper.callAll slabs calls = some (answers, slabs') ∧
      (∀ s ∈ slabs', s.Sound) ∧
      slabs'.map content? = after.map some ∧
      Buffer.keeper.callAll (slabs.map buffer) calls = some (answers, slabs'.map buffer) ∧
      (∀ call row, keeper.call slabs' call = some (false, row) → row = slabs') ∧
      (∀ index b, BufferContent.Kept index calls → before[index]? = some b →
        ∃ b', after[index]? = some b' ∧ b.committed <+: b'.committed) ∧
      (∀ index epoch owner later s other,
        calls = .request index (.lease epoch owner) :: later →
        slabs[index]? = some s → other.Sound → other.capacity = s.capacity →
        ∃ row, keeper.callAll (slabs.set index other) calls = some (answers, row) ∧
          row.map content? = after.map some) := by
  obtain ⟨slabs', slabs_run, sound', shown', tapes_run⟩ := callAll_content sound shown run
  refine ⟨slabs', slabs_run, sound', shown', tapes_run, fun _ _ => call_refused,
    fun index b kept here => BufferContent.committed_isPrefix kept run here, ?_⟩
  rintro index epoch owner later s other rfl here good capacity
  exact callAll_set_lease sound shown run here good capacity

/-- Two slabs of six and four bytes, written all over by earlier leases. -/
def recycled : List Slab :=
  [⟨⟨0, 3⟩, .ofBytes [9, 9, 9, 9, 9, 9], 2, 5, .one, .global, .global, true⟩,
   ⟨⟨1, 0⟩, .ofBytes [1, 2, 3, 4], 1, 3, .one, .thread 7, .threadLocal, false⟩]

/-- The first slab is leased anew and takes the pending bytes of the second one.  Five more bytes do
not fit behind them; then more is committed than is pending, and at the end the second slab has no
room for what it should take back. -/
def recycling : List BufferCall :=
  [.request 0 (.lease .one (.thread 8)), .carry 0 1, .request 0 (.append [4, 5, 6, 7, 8]),
   .request 0 (.patch 1 [7]), .request 0 (.commit 99), .request 0 (.append [5, 6, 7, 8]),
   .carry 1 0]

/-- New memory in place of the first slab's shows the same at the end. -/
theorem refines_contents_recycled :
    (∀ s ∈ recycled, s.Sound) ∧
    recycled.map content? = [⟨6, [9, 9], [9, 9, 9]⟩, ⟨4, [1], [2, 3]⟩].map some ∧
    BufferContent.keeper.callAll [⟨6, [9, 9], [9, 9, 9]⟩, ⟨4, [1], [2, 3]⟩] recycling =
      some ([true, true, false, true, true, true, false],
        [⟨6, [2, 7], [5, 6, 7, 8]⟩, ⟨4, [1], []⟩]) ∧
    (∃ slabs', keeper.callAll recycled recycling =
        some ([true, true, false, true, true, true, false], slabs') ∧
      (∀ s ∈ slabs', s.Sound) ∧
      slabs'.map content? = [⟨6, [2, 7], [5, 6, 7, 8]⟩, ⟨4, [1], []⟩].map some) ∧
    ∃ slabs', keeper.callAll (recycled.set 0 (.allocate ⟨0, 0⟩ 6 .global)) recycling =
        some ([true, true, false, true, true, true, false], slabs') ∧
      slabs'.map content? = [⟨6, [2, 7], [5, 6, 7, 8]⟩, ⟨4, [1], []⟩].map some := by
  have sound : ∀ s ∈ recycled, s.Sound := by
    intro s hs
    simp only [recycled, List.mem_cons, List.not_mem_nil, or_false] at hs
    rcases hs with rfl | rfl <;> exact ⟨by decide, by decide, by decide⟩
  have shown : recycled.map content? = [⟨6, [9, 9], [9, 9, 9]⟩, ⟨4, [1], [2, 3]⟩].map some := by
    decide
  have run : BufferContent.keeper.callAll [⟨6, [9, 9], [9, 9, 9]⟩, ⟨4, [1], [2, 3]⟩] recycling =
      some ([true, true, false, true, true, true, false],
        [⟨6, [2, 7], [5, 6, 7, 8]⟩, ⟨4, [1], []⟩]) := rfl
  obtain ⟨slabs', answered, sound', shown', -, -, -, forgets⟩ := refines_contents sound shown run
  exact ⟨sound, shown, run, ⟨slabs', answered, sound', shown'⟩,
    forgets 0 .one (.thread 8) _ _ _ rfl rfl (sound_allocate _ _ (by decide)) rfl⟩

end Slab

end TraceRecorder
