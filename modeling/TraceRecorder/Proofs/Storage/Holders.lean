/-
# Who has which chunk file in hand

A writer's file has all that was appended, but for what still waits (`ChunkFile.Backed`), and a
reader's has the bytes that it had when it was opened.  The disk keeps a table of the files that are
in hand, and the table is right if it names just these, no writer's file twice, and none of a
writer's that a reader has (`Disk.HeldBy`).

There is one lemma for each thing that a holder does: what it does to its own file, and that the
table is right afterwards.
-/
import Mathlib.Data.List.Basic
import TraceRecorder.Proofs.Storage.Places
import TraceRecorder.Storage.ChunkHolders

namespace TraceRecorder

open Fallible (runOn)

/-! ## 1. What one holder does -/

namespace ChunkFile

/-- **A writer's file**: it is where the path leads, and has what was appended, but for what still
waits. -/
structure Backed (d : Disk) (f : ChunkFile) (appended : Bytes) (content : Tape) : Prop where
  place : d.locate f.path = .ok (.file f.location content)
  offset : f.offset = content.length
  bytes : content.bytes ++ f.waiting.bytes = appended
  committed : f.committed = appended.length

/-- What a call of a writer leaves: the file, and the disk. -/
structure Writes (d : Disk) (f : ChunkFile) (appended : Bytes) (d' : Disk) (f' : ChunkFile)
    (content : Tape) : Prop where
  backed : Backed d' f' appended content
  rewrites : d.Rewrites f.location content d'
  path : f'.path = f.path
  location : f'.location = f.location

variable {d : Disk} {f : ChunkFile} {appended : Bytes} {content : Tape}

/-- Bytes that are put into a file stand behind those that it had. -/
theorem exists_put (place : d.locate f.path = .ok (.file f.location content))
    (offset : f.offset = content.length) (more : Tape) :
    ∃ d', runOn (f.put more) d = (.ok { f with offset := (content.join more).length }, d') ∧
      d.Rewrites f.location (content.join more) d' := by
  unfold put
  split
  case isTrue none_more =>
    have no_bytes : more.bytes = [] := by
      rw [← List.length_eq_zero_iff, Tape.length_bytes, none_more]
    have same : content.join more = content := Tape.eq_of_bytes_eq (by simp [no_bytes])
    refine ⟨d, ?_, ?_⟩
    · rw [same, ← offset]
      rfl
    · rw [same]
      exact .refl place
  case isFalse =>
    have found := Disk.content_of_locate place
    have spliced : content.splice content.length more = content.join more := by
      have whole : content.bytes.length ≤ content.length := Nat.le_of_eq content.length_bytes
      apply Tape.eq_of_bytes_eq
      simp [Bytes.splice, List.take_of_length_le whole,
        List.drop_eq_nil_of_le (whole.trans (Nat.le_add_right _ _))]
    refine ⟨_, ?_, Disk.rewrites_setNode place (.inr ⟨content, rfl⟩) (content.join more)⟩
    simp [found, offset, spliced]

/-- **After a flush nothing waits.** -/
theorem exists_flush (h : Backed d f appended content) :
    ∃ d' f' content', runOn f.flush d = (.ok f', d') ∧ Writes d f appended d' f' content' ∧
      content'.bytes = appended ∧ f'.waiting = .empty := by
  obtain ⟨d', put, rewrites⟩ := exists_put h.place h.offset f.waiting
  let f' : ChunkFile :=
    { f with offset := (content.join f.waiting).length, waiting := .empty }
  have run : runOn f.flush d = (.ok f', d') := by
    rw [flush, Fallible.runOn_bind, put]
    rfl
  have bytes : (content.join f.waiting).bytes = appended := by rw [Tape.bytes_join, h.bytes]
  have place := rewrites.locate_eq h.place
  simp only [Place.withFile, if_pos] at place
  have backed : Backed d' f' appended (content.join f.waiting) :=
    ⟨place, rfl, by simp [f', ← h.bytes], h.committed⟩
  exact ⟨d', f', _, run, ⟨backed, rewrites, rfl, rfl⟩, bytes, rfl⟩

theorem Writes.trans {appended' : Bytes} {d₁ d' : Disk} {f₁ f' : ChunkFile}
    {content₁ content' : Tape} (first : Writes d f appended d₁ f₁ content₁)
    (next : Writes d₁ f₁ appended' d' f' content') : Writes d f appended' d' f' content' where
  backed := next.backed
  rewrites := first.rewrites.trans (first.location ▸ next.rewrites)
  path := next.path.trans first.path
  location := next.location.trans first.location

/-- More bytes wait, or go to the file if nothing waits. -/
theorem exists_add (h : Backed d f appended content) (more : Tape)
    (room : f.waiting.length + more.length ≤ max blockLength more.length) :
    ∃ d' f' content',
      runOn (if more.length < blockLength
          then pure { f with
            committed := f.committed + more.length, waiting := f.waiting.join more }
          else { f with committed := f.committed + more.length }.put more) d = (.ok f', d') ∧
        Writes d f (appended ++ more.bytes) d' f' content' := by
  have committed : f.committed + more.length = (appended ++ more.bytes).length := by
    rw [List.length_append, Tape.length_bytes, h.committed]
  split
  case isTrue =>
    have bytes : content.bytes ++ (f.waiting.join more).bytes = appended ++ more.bytes := by
      rw [Tape.bytes_join, ← List.append_assoc, h.bytes]
    exact ⟨d, _, content, rfl, ⟨h.place, h.offset, bytes, committed⟩, .refl h.place, rfl, rfl⟩
  case isFalse large =>
    have none_waits : f.waiting.bytes = [] := by
      rw [← List.length_eq_zero_iff, Tape.length_bytes]
      omega
    obtain ⟨d', run, rewrites⟩ := exists_put
      (f := { f with committed := f.committed + more.length }) h.place h.offset more
    have place := rewrites.locate_eq h.place
    simp only [Place.withFile, if_pos] at place
    refine ⟨d', _, _, run, ⟨place, rfl, ?_, committed⟩, rewrites, rfl, rfl⟩
    simp [← h.bytes, none_waits]

/-- **Bytes are appended**: they wait, or go to the file behind all that waited. -/
theorem exists_append (h : Backed d f appended content) (more : Tape) :
    ∃ d' f' content', runOn (f.append more) d = (.ok f', d') ∧
      Writes d f (appended ++ more.bytes) d' f' content' := by
  unfold append
  dsimp only
  split
  case isTrue room =>
    obtain ⟨d', f', content', run, writes⟩ := exists_add h more
      (room.trans (Nat.le_max_left _ _))
    exact ⟨d', f', content', run, writes⟩
  case isFalse =>
    obtain ⟨d₁, f₁, content₁, flushed, first, -, empty⟩ := exists_flush h
    obtain ⟨d', f', content', run, writes⟩ := exists_add first.backed more (by simp [empty])
    refine ⟨d', f', content', ?_, first.trans writes⟩
    rw [Fallible.runOn_bind, flushed]
    exact run

end ChunkFile

/-! ## 2. What all holders have -/

namespace ChunkHandle

@[simp] def written? : ChunkHandle → Option Location
  | writer f _ => some f.location
  | _ => none

@[simp] def read? : ChunkHandle → Option Location
  | reader c => some c.location
  | _ => none

/-- The file that is held. -/
@[simp] def location? : ChunkHandle → Option Location
  | writer f _ => some f.location
  | reader c => some c.location
  | closed => none

/-- The path by which a file is held. -/
@[simp] def path? : ChunkHandle → Option String
  | writer f _ => some f.path
  | reader c => some c.path
  | closed => none

/-- **What is held is where the path leads.**  A device has no bytes for a reader. -/
def Stands (d : Disk) : ChunkHandle → Prop
  | writer f appended => ∃ content, f.Backed d appended content
  | reader c => d.locate c.path = .ok (.file c.location c.content) ∨
      (d.locate c.path = .ok (.device c.location) ∧ c.content = .empty)
  | closed => True

variable {d d' : Disk} {l : Location} {content : Tape} {h : ChunkHandle}

/-- What is not held may be written. -/
theorem Stands.rewrites (stands : h.Stands d) (rewrites : d.Rewrites l content d')
    (other : h.location? ≠ some l) : h.Stands d' := by
  cases h with
  | closed => trivial
  | writer f appended =>
    have away : f.location ≠ l := fun same => other (by simp [same])
    obtain ⟨old, backed⟩ := stands
    have place := rewrites.locate_eq backed.place
    rw [Place.withFile, if_neg away] at place
    exact ⟨old, place, backed.offset, backed.bytes, backed.committed⟩
  | reader c =>
    have away : c.location ≠ l := fun same => other (by simp [same])
    rcases stands with place | ⟨place, empty⟩
    · have place := rewrites.locate_eq place
      rw [Place.withFile, if_neg away] at place
      exact .inl place
    · exact .inr ⟨rewrites.locate_eq place, empty⟩

theorem Stands.held (stands : h.Stands d) (writers readers : List Location) :
    h.Stands { d with writers := writers, readers := readers } := by
  cases h with
  | closed => trivial
  | writer f appended =>
    obtain ⟨content, backed⟩ := stands
    exact ⟨content, (d.locate_held writers readers f.path).trans backed.place, backed.offset,
      backed.bytes, backed.committed⟩
  | reader c =>
    simp only [Stands, Disk.locate_held]
    exact stands

theorem Stands.leads (stands : h.Stands d) (holds : h.location? = some l) :
    ∃ path, h.path? = some path ∧
      ((∃ content, d.locate path = .ok (.file l content)) ∨ d.locate path = .ok (.device l)) := by
  cases h with
  | closed => cases holds
  | writer f appended =>
    obtain ⟨content, backed⟩ := stands
    obtain rfl : f.location = l := by simpa using holds
    exact ⟨f.path, rfl, .inl ⟨content, backed.place⟩⟩
  | reader c =>
    obtain rfl : c.location = l := by simpa using holds
    rcases stands with place | ⟨place, -⟩
    · exact ⟨c.path, rfl, .inl ⟨_, place⟩⟩
    · exact ⟨c.path, rfl, .inr place⟩

theorem Stands.locate_path (stands : h.Stands d) {path : String} (holds : h.path? = some path) :
    ∃ place, d.locate path = .ok place ∧ h.location? = some place.location := by
  cases h with
  | closed => cases holds
  | writer f appended =>
    cases holds
    obtain ⟨content, backed⟩ := stands
    exact ⟨_, backed.place, rfl⟩
  | reader c =>
    cases holds
    rcases stands with place | ⟨place, -⟩
    · exact ⟨_, place, rfl⟩
    · exact ⟨_, place, rfl⟩

end ChunkHandle

open ChunkHandle (written? read?)

namespace Disk

/-- **The table of a disk names what is in hand**, no writer's file twice and none that a reader
has. -/
structure HeldBy (d : Disk) (handles : List ChunkHandle) : Prop where
  writers : d.writers.Perm (handles.filterMap written?)
  readers : d.readers.Perm (handles.filterMap read?)
  distinct : d.writers.Nodup
  apart : ∀ l ∈ d.writers, l ∉ d.readers
  stands : ∀ h ∈ handles, h.Stands d

namespace HeldBy

variable {d d' : Disk} {h : ChunkHandle} {handles handles' rest : List ChunkHandle}
  {f f' : ChunkFile} {appended appended' : Bytes} {content : Tape} {c : FinishedChunk}
  {l : Location}

theorem perm (held : d.HeldBy handles) (same : handles.Perm handles') : d.HeldBy handles' where
  writers := held.writers.trans (same.filterMap written?)
  readers := held.readers.trans (same.filterMap read?)
  distinct := held.distinct
  apart := held.apart
  stands h hh := held.stands h (same.mem_iff.mpr hh)

theorem mem_writers (held : d.HeldBy handles) :
    l ∈ d.writers ↔ ∃ f appended, .writer f appended ∈ handles ∧ f.location = l := by
  rw [held.writers.mem_iff, List.mem_filterMap]
  constructor
  · rintro ⟨h, hh, holds⟩
    cases h with
    | writer f appended => exact ⟨f, appended, hh, by simpa using holds⟩
    | reader c | closed => cases holds
  · rintro ⟨f, appended, hh, rfl⟩
    exact ⟨_, hh, rfl⟩

/-- **The table says whether a file is in hand.** -/
theorem isHeld_iff (held : d.HeldBy handles) :
    d.isHeld l = true ↔ ∃ h ∈ handles, h.location? = some l := by
  rw [isHeld, Bool.or_eq_true, List.contains_iff_mem, List.contains_iff_mem,
    held.writers.mem_iff, held.readers.mem_iff, List.mem_filterMap, List.mem_filterMap]
  constructor
  · rintro (⟨h, hh, holds⟩ | ⟨h, hh, holds⟩)
    · exact ⟨h, hh, by cases h <;> simp_all⟩
    · exact ⟨h, hh, by cases h <;> simp_all⟩
  · rintro ⟨h, hh, holds⟩
    cases h with
    | writer f appended => exact .inl ⟨_, hh, holds⟩
    | reader c => exact .inr ⟨_, hh, holds⟩
    | closed => cases holds

/-- **What is in hand is a file or a device**, and no other place. -/
theorem location?_ne (held : d.HeldBy handles) {path : String} {place : Place}
    (leads : d.locate path = .ok place) (other : place = .directory l ∨ place = .vacant l) :
    ∀ h ∈ handles, h.location? ≠ some l := by
  intro h hh holds
  have stands := Disk.stands_of_locate leads
  obtain ⟨spot, there⟩ : d.Spot l ∧ d.node? l ≠ none := by
    obtain ⟨path, -, ⟨content, place⟩ | place⟩ := (held.stands h hh).leads holds
    · have stands := Disk.stands_of_locate place
      exact ⟨stands.1, by simp [stands.2]⟩
    · have stands := Disk.stands_of_locate place
      exact ⟨stands.1, by simp [stands.2]⟩
  rcases other with rfl | rfl
  · rcases stands with origin | ⟨entries, directory⟩
    · exact absurd (spot.isOrigin_eq_false.symm.trans origin) Bool.false_ne_true
    · exact spot.plain entries directory
  · exact there stands.2

/-- **Nobody else holds the file of a writer.** -/
theorem alone (held : d.HeldBy (.writer f appended :: rest)) (hh : h ∈ rest) :
    h.location? ≠ some f.location := by
  intro same
  have names := held.writers
  simp only [List.filterMap_cons, written?] at names
  have once := List.nodup_cons.mp (names.nodup_iff.mp held.distinct)
  cases h with
  | writer g log => exact once.1 (List.mem_filterMap.mpr ⟨_, hh, same⟩)
  | reader c =>
    refine held.apart f.location (names.mem_iff.mpr List.mem_cons_self) ?_
    rw [held.readers.mem_iff]
    exact List.mem_filterMap.mpr ⟨_, List.mem_cons_of_mem _ hh, same⟩
  | closed => cases same

/-- A writer goes on. -/
theorem wrote (held : d.HeldBy (.writer f appended :: rest))
    (writes : f.Writes d appended' d' f' content) : d'.HeldBy (.writer f' appended' :: rest) where
  writers := by
    rw [writes.rewrites.writers]
    simpa [writes.location] using held.writers
  readers := by
    rw [writes.rewrites.readers]
    simpa [List.filterMap_cons] using held.readers
  distinct := writes.rewrites.writers ▸ held.distinct
  apart := by
    rw [writes.rewrites.writers, writes.rewrites.readers]
    exact held.apart
  stands h hh := by
    rcases List.mem_cons.mp hh with rfl | hh
    · exact ⟨content, writes.backed⟩
    · exact (held.stands h (List.mem_cons_of_mem _ hh)).rewrites writes.rewrites (held.alone hh)

theorem letGo (held : d.HeldBy (.writer f appended :: rest)) :
    { d with writers := d.writers.erase f.location }.HeldBy (.closed :: rest) where
  writers := by
    have names := held.writers.erase f.location
    simpa [List.filterMap_cons] using names
  readers := by simpa [List.filterMap_cons] using held.readers
  distinct := held.distinct.erase _
  apart l hl := held.apart l (List.mem_of_mem_erase hl)
  stands h hh := by
    rcases List.mem_cons.mp hh with rfl | hh
    · trivial
    · exact (held.stands h (List.mem_cons_of_mem _ hh)).held _ d.readers

theorem release (held : d.HeldBy (.reader c :: rest)) :
    { d with readers := d.readers.erase c.location }.HeldBy (.closed :: rest) where
  writers := by simpa [List.filterMap_cons] using held.writers
  readers := by
    have names := held.readers.erase c.location
    simpa [List.filterMap_cons] using names
  distinct := held.distinct
  apart l hl hr := held.apart l hl (List.mem_of_mem_erase hr)
  stands h hh := by
    rcases List.mem_cons.mp hh with rfl | hh
    · trivial
    · exact (held.stands h (List.mem_cons_of_mem _ hh)).held d.writers _

/-- **A new writer**, of a file that nobody holds. -/
theorem create (held : d.HeldBy handles) (rewrites : d.Rewrites l .empty d')
    (free : ∀ h ∈ handles, h.location? ≠ some l) {path : String}
    (place : d'.locate path = .ok (.file l .empty)) :
    { d' with writers := l :: d'.writers }.HeldBy
      (.writer { path := path, location := l } [] :: handles) := by
  have new : l ∉ d.writers := by
    rw [held.mem_writers]
    rintro ⟨f, appended, hh, rfl⟩
    exact free _ hh rfl
  have unread : l ∉ d.readers := by
    rw [held.readers.mem_iff, List.mem_filterMap]
    rintro ⟨h, hh, holds⟩
    exact free h hh (by cases h <;> simp_all)
  refine ⟨?_, ?_, ?_, ?_, ?_⟩
  · simpa [List.filterMap_cons, rewrites.writers] using held.writers.cons l
  · simpa [List.filterMap_cons, rewrites.readers] using held.readers
  · simpa [rewrites.writers] using ⟨new, held.distinct⟩
  · simpa [rewrites.writers, rewrites.readers] using ⟨unread, held.apart⟩
  · intro h hh
    rcases List.mem_cons.mp hh with rfl | hh
    · exact ⟨.empty, (d'.locate_held _ d'.readers path).trans place, rfl, rfl, rfl⟩
    · exact ((held.stands h hh).rewrites rewrites (free h hh)).held _ d'.readers

/-- **A new reader**, of what no writer holds. -/
theorem openAt (held : d.HeldBy handles) (free : c.location ∉ d.writers)
    (stands : (ChunkHandle.reader c).Stands d) :
    { d with readers := c.location :: d.readers }.HeldBy (.reader c :: handles) := by
  refine ⟨?_, ?_, held.distinct, ?_, ?_⟩
  · simpa [List.filterMap_cons] using held.writers
  · simpa [List.filterMap_cons] using held.readers.cons c.location
  · intro l hl hr
    rcases List.mem_cons.mp hr with rfl | hr
    · exact free hl
    · exact held.apart l hl hr
  · intro h hh
    rcases List.mem_cons.mp hh with rfl | hh
    · exact stands.held d.writers _
    · exact (held.stands h hh).held d.writers _

end HeldBy

end Disk

end TraceRecorder
