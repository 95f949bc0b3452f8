/-
# Chunk files are exclusive and append-only

Any number of holders call on any paths, one call after the other.  `ChunkHolders.Effect` says once
what a call can do, with the guard under which it does so.  The rest is read off it:

* `Effect.held`: every call keeps the table of the disk right;
* `Finished.callAll`: a finished chunk has its bytes until a new one takes its place;
* `Exclusive`: what holds between two calls, and `Answers`: what the next call comes to.
-/
import TraceRecorder.Proofs.Storage.Holders

namespace TraceRecorder

open Fallible (runOn)

/-! ## 1. What a call can do -/

namespace ChunkHolders

/-- **What a call can do**, with the guard under which it does so. -/
inductive Effect (s : ChunkHolders) : ChunkCall → ChunkAnswer → ChunkHolders → Prop where
  /-- Someone holds the file. -/
  | createBusy (path : String) (place : Place) (h : ChunkHandle)
      (leads : s.disk.locate path = .ok place) (holder : h ∈ s.handles)
      (holds : h.location? = some place.location) :
      Effect s (.create path) (.refused (.inFile path (.file .lockedByWriter))) s
  | createFailed (path : String)
      (free : ∀ place, s.disk.locate path = .ok place →
        (∀ l, ¬ Disk.Takes l place) ∧ ∀ h ∈ s.handles, h.location? ≠ some place.location) :
      Effect s (.create path) (.refused (.inFile path (.file .unusable))) s
  | created (path : String) (l : Location) (place : Place) (d' : Disk)
      (leads : s.disk.locate path = .ok place) (takes : Disk.Takes l place)
      (free : ∀ h ∈ s.handles, h.location? ≠ some l) (rewrites : s.disk.Rewrites l .empty d') :
      Effect s (.create path) (.handle s.handles.length)
        ⟨{ d' with writers := l :: d'.writers },
          s.handles ++ [.writer { path := path, location := l } []]⟩
  /-- A writer holds the file. -/
  | openBusy (path : String) (place : Place) (f : ChunkFile) (appended : Bytes)
      (leads : s.disk.locate path = .ok place) (holder : .writer f appended ∈ s.handles)
      (holds : f.location = place.location) :
      Effect s (.openAt path) (.refused (.inFile path (.file .stillWritten))) s
  | openFailed (path : String) (flaw : FileFlaw) (other : flaw.report.kind ≠ .busy)
      (free : ∀ place, s.disk.locate path = .ok place →
        ∀ f appended, .writer f appended ∈ s.handles → f.location ≠ place.location) :
      Effect s (.openAt path) (.refused (.inFile path (.file flaw))) s
  | opened (c : FinishedChunk) (stands : (ChunkHandle.reader c).Stands s.disk)
      (free : c.location ∉ s.disk.writers) :
      Effect s (.openAt c.path) (.handle s.handles.length)
        ⟨{ s.disk with readers := c.location :: s.disk.readers }, s.handles ++ [.reader c]⟩
  /-- A writer goes on: it appends, or sends all that waits to the file. -/
  | wrote (before after : List ChunkHandle) (f f' : ChunkFile) (appended appended' : Bytes)
      (request : ChunkRequest) (d' : Disk) (content : Tape)
      (split : s.handles = before ++ .writer f appended :: after)
      (writes : f.Writes s.disk appended' d' f' content)
      (asked : (∃ more, request = .append more ∧ appended' = appended ++ more.bytes) ∨
        (request = .flush ∧ appended' = appended ∧ content.bytes = appended)) :
      Effect s (.request before.length request) .done ⟨d', before ++ .writer f' appended' :: after⟩
  | closed (before after : List ChunkHandle) (f f' : ChunkFile) (appended : Bytes)
      (d' : Disk) (content : Tape) (split : s.handles = before ++ .writer f appended :: after)
      (writes : f.Writes s.disk appended d' f' content) (all : content.bytes = appended) :
      Effect s (.request before.length .close) .done
        ⟨{ d' with writers := d'.writers.erase f.location }, before ++ .closed :: after⟩
  | released (before after : List ChunkHandle) (c : FinishedChunk)
      (split : s.handles = before ++ .reader c :: after) :
      Effect s (.request before.length .close) .done
        ⟨{ s.disk with readers := s.disk.readers.erase c.location }, before ++ .closed :: after⟩
  | misplaced (index : Nat) (request : ChunkRequest)
      (none_serves : s.handles[index]?.bind (·.serve? request) = none) :
      Effect s (.request index request) .misplaced s

variable {s : ChunkHolders}

/-- A new chunk that nobody is in the way of. -/
theorem call_create_free (held : s.disk.HeldBy s.handles) {path : String} {l : Location}
    {place : Place} (leads : s.disk.locate path = .ok place) (takes : Disk.Takes l place)
    (free : ∀ h ∈ s.handles, h.location? ≠ some l) :
    s.call (.create path) = (.handle s.handles.length,
      ⟨{ s.disk.setNode l (.file .empty) with
          writers := l :: (s.disk.setNode l (.file .empty)).writers },
        s.handles ++ [.writer { path := path, location := l } []]⟩) := by
  have unheld : s.disk.isHeld l = false := by
    rw [Bool.eq_false_iff, ne_eq, held.isHeld_iff]
    rintro ⟨h, hh, holds⟩
    exact free h hh holds
  have rewrites := Disk.rewrites_setNode leads takes .empty
  rcases takes with rfl | ⟨old, rfl⟩
  · simp [call, grant, ChunkFile.create, ChunkFile.create.hold, Disk.find, leads,
      rewrites.writers]
  · simp [call, grant, ChunkFile.create, ChunkFile.create.hold, Disk.find, leads, unheld,
      rewrites.writers]

theorem effect_created (held : s.disk.HeldBy s.handles) {path : String} {l : Location}
    {place : Place} (leads : s.disk.locate path = .ok place) (takes : Disk.Takes l place)
    (free : ∀ h ∈ s.handles, h.location? ≠ some l) :
    Effect s (.create path) (s.call (.create path)).1 (s.call (.create path)).2 := by
  rw [call_create_free held leads takes free]
  exact .created path l place _ leads takes free (Disk.rewrites_setNode leads takes .empty)

/-- Whatever a held file is, no new chunk takes its place. -/
theorem effect_create_held (held : s.disk.HeldBy s.handles) {path : String} {place : Place}
    (leads : s.disk.locate path = .ok place)
    (holder : ∃ h ∈ s.handles, h.location? = some place.location) :
    Effect s (.create path) (s.call (.create path)).1 (s.call (.create path)).2 := by
  have locked : s.disk.isHeld place.location = true := held.isHeld_iff.mpr holder
  obtain ⟨h, hh, holds⟩ := holder
  have run : s.call (.create path) = (.refused (.inFile path (.file .lockedByWriter)), s) := by
    cases place with
    | directory l => exact absurd holds (held.location?_ne leads (.inl rfl) h hh)
    | vacant l => exact absurd holds (held.location?_ne leads (.inr rfl) h hh)
    | file l content =>
      have locked : s.disk.isHeld l = true := locked
      simp [call, grant, ChunkFile.create, Disk.find, leads, Disk.failAt, locked]
    | device l =>
      have locked : s.disk.isHeld l = true := locked
      simp [call, grant, ChunkFile.create, Disk.find, leads, Disk.failAt, locked]
  rw [run]
  exact .createBusy path place h leads hh holds

theorem effect_create (held : s.disk.HeldBy s.handles) (path : String) :
    Effect s (.create path) (s.call (.create path)).1 (s.call (.create path)).2 := by
  cases leads : s.disk.locate path with
  | error flaw =>
    have run : s.call (.create path) = (.refused (.inFile path (.file .unusable)), s) := by
      simp [call, grant, ChunkFile.create, Disk.find, leads, Disk.failAt]
    rw [run]
    exact .createFailed path (by simp [leads])
  | ok place =>
    by_cases holder : ∃ h ∈ s.handles, h.location? = some place.location
    · exact effect_create_held held leads holder
    have free : ∀ h ∈ s.handles, h.location? ≠ some place.location := fun h hh holds =>
      holder ⟨h, hh, holds⟩
    -- Neither a directory nor a device gives way to a chunk.
    have unusable (stays : ∀ l, ¬ Disk.Takes l place)
        (run : s.call (.create path) = (.refused (.inFile path (.file .unusable)), s)) :
        Effect s (.create path) (s.call (.create path)).1 (s.call (.create path)).2 := by
      rw [run]
      refine .createFailed path fun place' leads' => ?_
      obtain rfl : place = place' := Except.ok.inj (leads.symm.trans leads')
      exact ⟨stays, free⟩
    cases place with
    | directory l =>
      exact unusable (by simp [Disk.Takes])
        (by simp [call, grant, ChunkFile.create, Disk.find, leads, Disk.failAt])
    | vacant l => exact effect_created held leads (.inl rfl) free
    | file l content => exact effect_created held leads (.inr ⟨content, rfl⟩) free
    | device l =>
      have unheld : s.disk.isHeld l = false := by
        rwa [Bool.eq_false_iff, ne_eq, held.isHeld_iff]
      exact unusable (by simp [Disk.Takes])
        (by simp [call, grant, ChunkFile.create, Disk.find, leads, Disk.failAt, unheld])

theorem call_openAt_file {path : String} {l : Location} {content : Tape}
    (leads : s.disk.locate path = .ok (.file l content)) (free : l ∉ s.disk.writers) :
    s.call (.openAt path) = (.handle s.handles.length,
      ⟨{ s.disk with readers := l :: s.disk.readers },
        s.handles ++ [.reader ⟨path, l, content⟩]⟩) := by
  simp [call, grant, FinishedChunk.openAt, FinishedChunk.openAt.hold, Disk.find, leads, free]

theorem writer_location_ne (held : s.disk.HeldBy s.handles) {path : String} {place : Place}
    (leads : s.disk.locate path = .ok place) (no_file : ∀ l content, place ≠ .file l content)
    {f : ChunkFile} {appended : Bytes} (writer : .writer f appended ∈ s.handles) :
    f.location ≠ place.location := by
  intro same
  cases place with
  | file l content => exact no_file l content rfl
  | directory l => exact held.location?_ne leads (.inl rfl) _ writer (congrArg some same)
  | vacant l => exact held.location?_ne leads (.inr rfl) _ writer (congrArg some same)
  | device l =>
    obtain ⟨content, backed⟩ := held.stands _ writer
    have file := (Disk.stands_of_locate backed.place).2
    have device := (Disk.stands_of_locate leads).2
    rw [same] at file
    cases file.symm.trans device

theorem effect_openAt (held : s.disk.HeldBy s.handles) (path : String) :
    Effect s (.openAt path) (s.call (.openAt path)).1 (s.call (.openAt path)).2 := by
  cases leads : s.disk.locate path with
  | error flaw =>
    have run : s.call (.openAt path) = (.refused (.inFile path (.file flaw)), s) := by
      simp [call, grant, FinishedChunk.openAt, Disk.find, leads, Disk.failAt]
    rw [run]
    refine .openFailed path flaw ?_ (by simp [leads])
    rcases Disk.flaw_of_locate leads with rfl | rfl <;> decide
  | ok place =>
    -- Where there is nothing to be read, no writer is in the way either.
    have failed (flaw : FileFlaw) (other : flaw.report.kind ≠ .busy)
        (no_file : ∀ l content, place ≠ .file l content)
        (run : s.call (.openAt path) = (.refused (.inFile path (.file flaw)), s)) :
        Effect s (.openAt path) (s.call (.openAt path)).1 (s.call (.openAt path)).2 := by
      rw [run]
      refine .openFailed path flaw other fun place' leads' f appended writer => ?_
      obtain rfl : place = place' := Except.ok.inj (leads.symm.trans leads')
      exact writer_location_ne held leads no_file writer
    cases place with
    | directory l =>
      exact failed .unusable (by decide) (by simp)
        (by simp [call, grant, FinishedChunk.openAt, Disk.find, leads, Disk.failAt])
    | vacant l =>
      exact failed .missing (by decide) (by simp)
        (by simp [call, grant, FinishedChunk.openAt, Disk.find, leads, Disk.failAt])
    | device l =>
      have run : s.call (.openAt path) = (.handle s.handles.length,
          ⟨{ s.disk with readers := l :: s.disk.readers },
            s.handles ++ [.reader ⟨path, l, .empty⟩]⟩) := by
        simp [call, grant, FinishedChunk.openAt, FinishedChunk.openAt.hold, Disk.find, leads]
      rw [run]
      refine .opened ⟨path, l, .empty⟩ (.inr ⟨leads, rfl⟩) ?_
      rw [held.mem_writers]
      rintro ⟨f, appended, writer, same⟩
      exact writer_location_ne held leads (by simp) writer same
    | file l content =>
      by_cases writes : l ∈ s.disk.writers
      · have run : s.call (.openAt path) = (.refused (.inFile path (.file .stillWritten)), s) := by
          simp [call, grant, FinishedChunk.openAt, Disk.find, leads, Disk.failAt, writes]
        obtain ⟨f, appended, writer, same⟩ := held.mem_writers.mp writes
        rw [run]
        exact .openBusy path _ f appended leads writer same
      · rw [call_openAt_file leads writes]
        exact .opened ⟨path, l, content⟩ (.inl leads) writes

theorem exists_split {handles : List ChunkHandle} {index : Nat} {h : ChunkHandle}
    (found : handles[index]? = some h) :
    ∃ before after, handles = before ++ h :: after ∧ before.length = index := by
  obtain ⟨bound, rfl⟩ := List.getElem?_eq_some_iff.mp found
  exact ⟨handles.take index, handles.drop (index + 1), by simp, by simp [bound.le]⟩

theorem call_served {before after : List ChunkHandle} {h h' : ChunkHandle} {d' : Disk}
    {request : ChunkRequest} {x : DiskAction ChunkHandle}
    (split : s.handles = before ++ h :: after) (serves : h.serve? request = some x)
    (run : runOn x s.disk = (.ok h', d')) :
    s.call (.request before.length request) = (.done, ⟨d', before ++ h' :: after⟩) := by
  simp [call, split, serves, run]

theorem effect_request (held : s.disk.HeldBy s.handles) (index : Nat) (request : ChunkRequest) :
    Effect s (.request index request) (s.call (.request index request)).1
      (s.call (.request index request)).2 := by
  cases found : s.handles[index]? with
  | none =>
    have run : s.call (.request index request) = (.misplaced, s) := by simp [call, found]
    rw [run]
    exact .misplaced index request (by simp [found])
  | some h =>
    obtain ⟨before, after, split, rfl⟩ := exists_split found
    have out_of_hand (refuses : h.serve? request = none) :
        Effect s (.request before.length request) (s.call (.request before.length request)).1
          (s.call (.request before.length request)).2 := by
      have run : s.call (.request before.length request) = (.misplaced, s) := by
        simp [call, found, refuses]
      rw [run]
      exact .misplaced _ request (by simp [found, refuses])
    cases h with
    | closed => exact out_of_hand (by cases request <;> rfl)
    | reader c =>
      cases request with
      | append more | flush => exact out_of_hand rfl
      | close =>
        rw [call_served split rfl (by rfl)]
        exact .released before after c split
    | writer f appended =>
      obtain ⟨content, backed⟩ := held.stands (.writer f appended) (by simp [split])
      cases request with
      | append more =>
        obtain ⟨d', f', content', run, writes⟩ := ChunkFile.exists_append backed more
        rw [call_served split rfl (by rw [Fallible.runOn_bind, run]; rfl)]
        exact .wrote before after f f' appended _ _ d' content' split writes
          (.inl ⟨more, rfl, rfl⟩)
      | flush =>
        obtain ⟨d', f', content', run, writes, all, -⟩ := ChunkFile.exists_flush backed
        rw [call_served split rfl (by rw [Fallible.runOn_bind, run]; rfl)]
        exact .wrote before after f f' appended _ _ d' content' split writes
          (.inr ⟨rfl, rfl, all⟩)
      | close =>
        obtain ⟨d', f', content', run, writes, all, -⟩ := ChunkFile.exists_flush backed
        have close : runOn f.close s.disk =
            (.ok (), { d' with writers := d'.writers.erase f.location }) := by
          rw [ChunkFile.close, Fallible.runOn_bind, run]
          rfl
        rw [call_served split rfl (by rw [Fallible.runOn_bind, close]; rfl)]
        exact .closed before after f f' appended d' content' split writes all

theorem effect (held : s.disk.HeldBy s.handles) (c : ChunkCall) :
    Effect s c (s.call c).1 (s.call c).2 := by
  cases c with
  | create path => exact effect_create held path
  | openAt path => exact effect_openAt held path
  | request index request => exact effect_request held index request

theorem effect_of_call (held : s.disk.HeldBy s.handles) {c : ChunkCall} {answer : ChunkAnswer}
    {s' : ChunkHolders} (run : s.call c = (answer, s')) : Effect s c answer s' := by
  have effect := effect held c
  rwa [run] at effect

theorem held_middle {d : Disk} {before after : List ChunkHandle} {h : ChunkHandle} :
    d.HeldBy (before ++ h :: after) ↔ d.HeldBy (h :: (before ++ after)) :=
  ⟨fun held => held.perm List.perm_middle, fun held => held.perm List.perm_middle.symm⟩

/-- **A call keeps the table right**, and every writer's file. -/
theorem Effect.held {c : ChunkCall} {answer : ChunkAnswer} {s' : ChunkHolders}
    (effect : Effect s c answer s') (held : s.disk.HeldBy s.handles) :
    s'.disk.HeldBy s'.handles := by
  cases effect with
  | createBusy | createFailed | openBusy | openFailed | misplaced => exact held
  | created path l place d' leads takes free rewrites =>
    have new : d'.locate path = .ok (.file l .empty) := by
      rw [rewrites.locate_eq leads]
      rcases takes with rfl | ⟨old, rfl⟩ <;> simp [Place.withFile]
    exact (held.create rewrites free new).perm (List.perm_append_singleton _ _).symm
  | opened c stands free =>
    exact (held.openAt free stands).perm (List.perm_append_singleton _ _).symm
  | wrote before after f f' appended appended' request d' content split writes =>
    rw [split, held_middle] at held
    exact held_middle.mpr (held.wrote writes)
  | closed before after f f' appended d' content split writes =>
    rw [split, held_middle] at held
    have let_go := (held.wrote writes).letGo
    rw [writes.location] at let_go
    exact held_middle.mpr let_go
  | released before after c split =>
    rw [split, held_middle] at held
    exact held_middle.mpr held.release

theorem held_callAll (held : s.disk.HeldBy s.handles) (calls : List ChunkCall) :
    (s.callAll calls).disk.HeldBy (s.callAll calls).handles := by
  induction calls generalizing s with
  | nil => exact held
  | cons c rest ih => exact ih ((effect held c).held held)

theorem held_start (root working : Node) :
    (start root working).disk.HeldBy (start root working).handles :=
  ⟨.nil, .nil, .nil, List.forall_mem_nil _, List.forall_mem_nil _⟩

/-- **Where paths lead stays**, whatever becomes of the files there. -/
theorem Effect.locations {c : ChunkCall} {answer : ChunkAnswer} {s' : ChunkHolders}
    (effect : Effect s c answer s') (path : String) :
    (s'.disk.locate path).toOption.map Place.location =
      (s.disk.locate path).toOption.map Place.location := by
  have kept {d d' : Disk} {l : Location} {content : Tape} (rewrites : d.Rewrites l content d') :
      (d'.locate path).toOption.map Place.location =
        (d.locate path).toOption.map Place.location := by
    rw [rewrites.locate, Option.map_map]
    congr 1
    funext place
    exact place.location_withFile l content
  cases effect with
  | createBusy | createFailed | openBusy | openFailed | misplaced => rfl
  | created _ l place d' leads takes free rewrites =>
    rw [Disk.locate_held d' _ d'.readers]
    exact kept rewrites
  | opened c stands free => rw [Disk.locate_held s.disk s.disk.writers]
  | wrote before after f f' appended appended' request d' content split writes =>
    exact kept writes.rewrites
  | closed before after f f' appended d' content split writes =>
    rw [Disk.locate_held d' _ d'.readers]
    exact kept writes.rewrites
  | released before after c split => rw [Disk.locate_held s.disk s.disk.writers]

/-! ## 2. Finished chunks -/

/-- **A chunk that is finished**: its file has some bytes, and no writer. -/
structure Finished (s : ChunkHolders) (path : String) (l : Location) (content : Tape) : Prop where
  place : s.disk.locate path = .ok (.file l content)
  unwritten : ∀ f appended, .writer f appended ∈ s.handles → f.location ≠ l

theorem unwritten_middle {before after : List ChunkHandle} {h h' : ChunkHandle} {l : Location}
    (unwritten : ∀ f appended, .writer f appended ∈ before ++ h :: after → f.location ≠ l)
    (own : ∀ f appended, h' = .writer f appended → f.location ≠ l) :
    ∀ f appended, .writer f appended ∈ before ++ h' :: after → f.location ≠ l := by
  intro f appended hh
  rcases List.mem_append.mp hh with hh | hh
  · exact unwritten f appended (List.mem_append_left _ hh)
  · rcases List.mem_cons.mp hh with same | hh
    · exact own f appended same.symm
    · exact unwritten f appended (List.mem_append_right _ (List.mem_cons_of_mem _ hh))

/-- A call creates no chunk at a place. -/
def Elsewhere (s : ChunkHolders) (l : Location) (c : ChunkCall) : Prop :=
  ∀ path place, c = .create path → s.disk.locate path = .ok place → place.location ≠ l

variable {path : String} {l : Location} {content : Tape}

/-- **A finished chunk has its bytes until a new one takes its place.** -/
theorem Effect.finished {c : ChunkCall} {answer : ChunkAnswer} {s' : ChunkHolders}
    (effect : Effect s c answer s') (finished : s.Finished path l content)
    (elsewhere : s.Elsewhere l c) : s'.Finished path l content := by
  obtain ⟨place, unwritten⟩ := finished
  -- Other files may be written.
  have kept {d' : Disk} {x : Location} {written : Tape} (other : l ≠ x)
      (rewrites : s.disk.Rewrites x written d') : d'.locate path = .ok (.file l content) := by
    have place := rewrites.locate_eq place
    rwa [Place.withFile, if_neg other] at place
  cases effect with
  | createBusy | createFailed | openBusy | openFailed | misplaced => exact ⟨place, unwritten⟩
  | created other x place' d' leads takes free rewrites =>
    have apart : x ≠ l := by
      have away := elsewhere other place' rfl leads
      rcases takes with rfl | ⟨old, rfl⟩ <;> exact away
    refine ⟨(d'.locate_held _ d'.readers path).trans (kept apart.symm rewrites), ?_⟩
    intro f appended hh
    rcases List.mem_append.mp hh with hh | hh
    · exact unwritten f appended hh
    · cases List.mem_singleton.mp hh
      exact apart
  | opened c stands free =>
    refine ⟨(s.disk.locate_held s.disk.writers _ path).trans place, ?_⟩
    intro f appended hh
    refine unwritten f appended ((List.mem_append.mp hh).resolve_right fun hh => ?_)
    cases List.mem_singleton.mp hh
  | wrote before after f f' appended appended' request d' written split writes =>
    rw [split] at unwritten
    have other : f.location ≠ l := unwritten f appended (by simp)
    refine ⟨kept other.symm writes.rewrites, unwritten_middle unwritten ?_⟩
    rintro _ _ ⟨⟩
    rwa [writes.location]
  | closed before after f f' appended d' written split writes =>
    rw [split] at unwritten
    have other : f.location ≠ l := unwritten f appended (by simp)
    refine ⟨(d'.locate_held _ d'.readers path).trans (kept other.symm writes.rewrites),
      unwritten_middle unwritten ?_⟩
    rintro _ _ ⟨⟩
  | released before after c split =>
    rw [split] at unwritten
    refine ⟨(s.disk.locate_held s.disk.writers _ path).trans place, unwritten_middle unwritten ?_⟩
    rintro _ _ ⟨⟩

/-- So it has after any calls. -/
theorem Finished.callAll {calls : List ChunkCall} (held : s.disk.HeldBy s.handles)
    (finished : s.Finished path l content) (elsewhere : ∀ c ∈ calls, s.Elsewhere l c) :
    (s.callAll calls).Finished path l content := by
  induction calls generalizing s with
  | nil => exact finished
  | cons c rest ih =>
    have effect := effect held c
    refine ih (effect.held held) (effect.finished finished (elsewhere c List.mem_cons_self)) ?_
    intro c' hc' other place' created leads'
    -- the path led to the same place before the call
    have same := effect.locations other
    rw [leads'] at same
    cases leads : s.disk.locate other with
    | error flaw => simp [leads, Except.toOption] at same
    | ok place =>
      have same : place'.location = place.location := by simpa [leads, Except.toOption] using same
      rw [same]
      exact elsewhere c' (List.mem_cons_of_mem _ hc') other place created leads

/-! ## 3. The laws of chunk files -/

/-- **What holds between two calls.** -/
structure Exclusive (s : ChunkHolders) : Prop where
  /-- Nobody else has the file of a writer, nor holds anything by its path. -/
  alone : ∀ (i j : Nat) (f : ChunkFile) (appended : Bytes) (h : ChunkHandle), i ≠ j →
    s.handles[i]? = some (.writer f appended) → s.handles[j]? = some h →
      h.location? ≠ some f.location ∧ h.path? ≠ some f.path
  /-- The file has what was appended, but for what still waits. -/
  backed : ∀ (i : Nat) (f : ChunkFile) (appended : Bytes),
    s.handles[i]? = some (.writer f appended) → ∃ content, f.Backed s.disk appended content
  shown : ∀ (i : Nat) (c : FinishedChunk), s.handles[i]? = some (.reader c) →
    (ChunkHandle.reader c).Stands s.disk

/-- **What calls come to.** -/
structure Answers (s : ChunkHolders) : Prop where
  /-- A refusal changes nothing. -/
  refused : ∀ (c : ChunkCall) (fault : Fault) (s' : ChunkHolders),
    s.call c = (.refused fault, s') → s' = s
  /-- A new chunk is refused to one who comes while the file is held. -/
  create_busy : ∀ (path : String) (place : Place), s.disk.locate path = .ok place →
    ((∃ fault : Fault, fault.report.kind = .busy ∧ s.call (.create path) = (.refused fault, s)) ↔
      ∃ h ∈ s.handles, h.location? = some place.location)
  /-- A chunk is refused to one who would read while a writer holds the file. -/
  open_busy : ∀ (path : String) (place : Place), s.disk.locate path = .ok place →
    ((∃ fault : Fault, fault.report.kind = .busy ∧ s.call (.openAt path) = (.refused fault, s)) ↔
      ∃ f appended, .writer f appended ∈ s.handles ∧ f.location = place.location)
  /-- A new chunk can be had where nobody holds a file. -/
  create : ∀ (path : String) (place : Place) (l : Location), s.disk.locate path = .ok place →
    Disk.Takes l place → (∀ h ∈ s.handles, h.location? ≠ some l) →
      ∃ s', s.call (.create path) = (.handle s.handles.length, s')
  /-- It is an empty file, whatever was there. -/
  created : ∀ (path : String) (index : Nat) (s' : ChunkHolders),
    s.call (.create path) = (.handle index, s') → ∃ f : ChunkFile,
      f.path = path ∧ f.committed = 0 ∧ index = s.handles.length ∧
      s'.handles = s.handles ++ [.writer f []] ∧
      s'.disk.locate path = .ok (.file f.location .empty)
  append : ∀ (i : Nat) (f : ChunkFile) (appended : Bytes) (more : Tape),
    s.handles[i]? = some (.writer f appended) → ∃ d' f', f'.path = f.path ∧
      s.call (.request i (.append more)) =
        (.done, ⟨d', s.handles.set i (.writer f' (appended ++ more.bytes))⟩)
  /-- After a flush the file has all that was appended. -/
  flush : ∀ (i : Nat) (f : ChunkFile) (appended : Bytes),
    s.handles[i]? = some (.writer f appended) → ∃ d' f' content, f'.path = f.path ∧
      s.call (.request i .flush) = (.done, ⟨d', s.handles.set i (.writer f' appended)⟩) ∧
      d'.locate f.path = .ok (.file f.location content) ∧ content.bytes = appended ∧
      f'.committed = appended.length
  /-- So it has when it is closed. -/
  close : ∀ (i : Nat) (f : ChunkFile) (appended : Bytes),
    s.handles[i]? = some (.writer f appended) → ∃ d' content,
      s.call (.request i .close) = (.done, ⟨d', s.handles.set i .closed⟩) ∧
      d'.locate f.path = .ok (.file f.location content) ∧ content.bytes = appended ∧
      f.committed = appended.length
  /-- And whoever opens it finds that, until a new chunk takes its place. -/
  reopened : ∀ (i : Nat) (f : ChunkFile) (appended : Bytes) (calls : List ChunkCall),
    s.handles[i]? = some (.writer f appended) →
    (∀ c ∈ calls, (s.call (.request i .close)).2.Elsewhere f.location c) →
      ∃ (s' : ChunkHolders) (c : FinishedChunk) (d' : Disk),
        (s.call (.request i .close)).2.callAll calls = s' ∧ c.path = f.path ∧ c.bytes = appended ∧
        s'.call (.openAt f.path) = (.handle s'.handles.length, ⟨d', s'.handles ++ [.reader c]⟩)

theorem apart_of_held (held : s.disk.HeldBy s.handles) : s.Exclusive := by
  refine ⟨?_, ?_, ?_⟩
  · intro i j f appended h apart at_i at_j
    obtain ⟨before, after, split, rfl⟩ := exists_split at_i
    have front := held
    rw [split, held_middle] at front
    have others : h ∈ s.handles.eraseIdx before.length :=
      List.mem_eraseIdx_iff_getElem?.mpr ⟨j, apart.symm, at_j⟩
    rw [split, List.eraseIdx_append_of_length_le (Nat.le_refl _), Nat.sub_self,
      List.eraseIdx_cons_zero] at others
    have other := front.alone others
    refine ⟨other, fun same => other ?_⟩
    -- one path leads to one place
    obtain ⟨content, backed⟩ := held.stands _ (List.mem_of_getElem? at_i)
    obtain ⟨place, leads, holds⟩ :=
      (held.stands h (List.mem_of_getElem? at_j)).locate_path same
    obtain rfl := Except.ok.inj (backed.place.symm.trans leads)
    exact holds
  · intro i f appended at_i
    exact held.stands _ (List.mem_of_getElem? at_i)
  · intro i c at_i
    exact held.stands _ (List.mem_of_getElem? at_i)

/-- **A chunk is finished when its writer closes it.** -/
theorem exists_finished (held : s.disk.HeldBy s.handles) {i : Nat} {f : ChunkFile}
    {appended : Bytes} (at_i : s.handles[i]? = some (.writer f appended)) :
    ∃ d' content, s.call (.request i .close) = (.done, ⟨d', s.handles.set i .closed⟩) ∧
      content.bytes = appended ∧
      (s.call (.request i .close)).2.Finished f.path f.location content := by
  rcases run : s.call (.request i .close) with ⟨answer, s'⟩
  cases effect_of_call held run with
  | closed before after g g' log d' content split writes all =>
    obtain ⟨rfl, rfl⟩ : g = f ∧ log = appended := by simpa [split] using at_i
    refine ⟨{ d' with writers := d'.writers.erase g.location }, content, by simp [split], all,
      ?_, ?_⟩
    · have place := writes.backed.place
      rw [writes.path, writes.location] at place
      exact (d'.locate_held _ d'.readers g.path).trans place
    · rw [split, held_middle] at held
      intro f' appended' hh same
      have others : .writer f' appended' ∈ before ++ after := by simpa using hh
      exact held.alone others (congrArg some same)
  | wrote _ _ _ _ _ _ _ _ _ _ _ asked => simp at asked
  | released before after c split => simp [split] at at_i
  | misplaced _ _ none_serves => simp [at_i, ChunkHandle.serve?] at none_serves

theorem create_busy_iff (held : s.disk.HeldBy s.handles) {place : Place}
    (leads : s.disk.locate path = .ok place) :
    (∃ fault : Fault, fault.report.kind = .busy ∧ s.call (.create path) = (.refused fault, s)) ↔
      ∃ h ∈ s.handles, h.location? = some place.location := by
  constructor
  · rintro ⟨fault, busy, run⟩
    cases effect_of_call held run with
    | createBusy _ place' h leads' hh holds =>
      obtain rfl : place = place' := Except.ok.inj (leads.symm.trans leads')
      exact ⟨h, hh, holds⟩
    | createFailed => cases busy
  · rintro ⟨h, hh, holds⟩
    rcases run : s.call (.create path) with ⟨answer, s'⟩
    cases effect_of_call held run with
    | createBusy => exact ⟨_, rfl, rfl⟩
    | createFailed _ free => exact absurd holds ((free place leads).2 h hh)
    | created _ l place' d' leads' takes free rewrites =>
      obtain rfl : place = place' := Except.ok.inj (leads.symm.trans leads')
      exact absurd holds (takes.location ▸ free h hh)

theorem open_busy_iff (held : s.disk.HeldBy s.handles) {place : Place}
    (leads : s.disk.locate path = .ok place) :
    (∃ fault : Fault, fault.report.kind = .busy ∧ s.call (.openAt path) = (.refused fault, s)) ↔
      ∃ f appended, .writer f appended ∈ s.handles ∧ f.location = place.location := by
  constructor
  · rintro ⟨fault, busy, run⟩
    cases effect_of_call held run with
    | openBusy _ place' f appended leads' hh holds =>
      obtain rfl : place = place' := Except.ok.inj (leads.symm.trans leads')
      exact ⟨f, appended, hh, holds⟩
    | openFailed _ flaw other => exact absurd busy other
  · rintro ⟨f, appended, hh, holds⟩
    rcases run : s.call (.openAt path) with ⟨answer, s'⟩
    cases effect_of_call held run with
    | openBusy => exact ⟨_, rfl, rfl⟩
    | openFailed _ flaw other free => exact absurd holds (free place leads f appended hh)
    | opened c stands free =>
      obtain ⟨place', leads', same⟩ := stands.locate_path rfl
      obtain rfl : place = place' := Except.ok.inj (leads.symm.trans leads')
      have writes := held.mem_writers.mpr ⟨f, appended, hh, holds.trans (Option.some.inj same).symm⟩
      exact absurd writes free

theorem created_empty (held : s.disk.HeldBy s.handles) {index : Nat} {s' : ChunkHolders}
    (run : s.call (.create path) = (.handle index, s')) : ∃ f : ChunkFile,
      f.path = path ∧ f.committed = 0 ∧ index = s.handles.length ∧
      s'.handles = s.handles ++ [.writer f []] ∧
      s'.disk.locate path = .ok (.file f.location .empty) := by
  cases effect_of_call held run with
  | created _ l place d' leads takes free rewrites =>
    refine ⟨{ path := path, location := l }, rfl, rfl, rfl, rfl, ?_⟩
    exact (d'.locate_held _ d'.readers path).trans (rewrites.locate_eq_file leads takes)

variable {i : Nat} {f : ChunkFile} {appended : Bytes}

theorem exists_appended (held : s.disk.HeldBy s.handles)
    (at_i : s.handles[i]? = some (.writer f appended)) (more : Tape) :
    ∃ d' f', f'.path = f.path ∧ s.call (.request i (.append more)) =
      (.done, ⟨d', s.handles.set i (.writer f' (appended ++ more.bytes))⟩) := by
  rcases run : s.call (.request i (.append more)) with ⟨answer, s'⟩
  cases effect_of_call held run with
  | wrote before after g g' log log' _ d' content split writes asked =>
    obtain ⟨rfl, rfl⟩ : g = f ∧ log = appended := by simpa [split] using at_i
    obtain rfl : log' = log ++ more.bytes := by simpa using asked
    exact ⟨d', g', writes.path, by simp [split]⟩
  | misplaced _ _ none_serves => simp [at_i, ChunkHandle.serve?] at none_serves

theorem exists_flushed (held : s.disk.HeldBy s.handles)
    (at_i : s.handles[i]? = some (.writer f appended)) :
    ∃ d' f' content, f'.path = f.path ∧
      s.call (.request i .flush) = (.done, ⟨d', s.handles.set i (.writer f' appended)⟩) ∧
      d'.locate f.path = .ok (.file f.location content) ∧ content.bytes = appended ∧
      f'.committed = appended.length := by
  rcases run : s.call (.request i .flush) with ⟨answer, s'⟩
  cases effect_of_call held run with
  | wrote before after g g' log log' _ d' content split writes asked =>
    obtain ⟨rfl, rfl⟩ : g = f ∧ log = appended := by simpa [split] using at_i
    obtain ⟨rfl, all⟩ : log' = log ∧ content.bytes = log := by simpa using asked
    have place := writes.backed.place
    rw [writes.path, writes.location] at place
    exact ⟨d', g', content, writes.path, by simp [split], place, all, writes.backed.committed⟩
  | misplaced _ _ none_serves => simp [at_i, ChunkHandle.serve?] at none_serves

theorem exists_closed (held : s.disk.HeldBy s.handles)
    (at_i : s.handles[i]? = some (.writer f appended)) :
    ∃ d' content, s.call (.request i .close) = (.done, ⟨d', s.handles.set i .closed⟩) ∧
      d'.locate f.path = .ok (.file f.location content) ∧ content.bytes = appended ∧
      f.committed = appended.length := by
  obtain ⟨d', content, run, all, finished⟩ := exists_finished held at_i
  obtain ⟨_, backed⟩ := held.stands _ (List.mem_of_getElem? at_i)
  have place := finished.place
  rw [run] at place
  exact ⟨d', content, run, place, all, backed.committed⟩

theorem exists_reopened (held : s.disk.HeldBy s.handles)
    (at_i : s.handles[i]? = some (.writer f appended)) {calls : List ChunkCall}
    (elsewhere : ∀ c ∈ calls, (s.call (.request i .close)).2.Elsewhere f.location c) :
    ∃ (s' : ChunkHolders) (c : FinishedChunk) (d' : Disk),
      (s.call (.request i .close)).2.callAll calls = s' ∧ c.path = f.path ∧ c.bytes = appended ∧
      s'.call (.openAt f.path) = (.handle s'.handles.length, ⟨d', s'.handles ++ [.reader c]⟩) := by
  obtain ⟨_, content, -, all, finished⟩ := exists_finished held at_i
  have held' := (effect held (.request i .close)).held held
  have kept := finished.callAll held' elsewhere
  have free : f.location ∉ ((s.call (.request i .close)).2.callAll calls).disk.writers := by
    rw [(held_callAll held' calls).mem_writers]
    rintro ⟨g, log, hh, same⟩
    exact kept.unwritten g log hh same
  exact ⟨_, ⟨f.path, f.location, content⟩, _, rfl, rfl, all, call_openAt_file kept.place free⟩

theorem answers (held : s.disk.HeldBy s.handles) : s.Answers where
  refused c fault s' run := by cases effect_of_call held run <;> rfl
  create_busy _ _ leads := create_busy_iff held leads
  open_busy _ _ leads := open_busy_iff held leads
  create _ _ _ leads takes free := ⟨_, call_create_free held leads takes free⟩
  created _ _ _ run := created_empty held run
  append _ _ _ more at_i := exists_appended held at_i more
  flush _ _ _ at_i := exists_flushed held at_i
  close _ _ _ at_i := exists_closed held at_i
  reopened _ _ _ _ at_i elsewhere := exists_reopened held at_i elsewhere

/-- **Chunk files are exclusive and append-only**, after any calls on any disk.

The calls are those of any number of holders, on paths of any kind: there may be several for one
file, and some may lead nowhere.  Whoever writes a file has it alone, readers share a file that
nobody writes, and who comes too late is refused as busy and changes nothing.  A file that is
created is empty, whatever was there.  From then on it has what its holder appended, up to a rest
that waits in the holder's memory until it is flushed or the file is closed; and who opens the file
later finds all of that. -/
theorem lawful (root working : Node) (calls : List ChunkCall) :
    ((start root working).callAll calls).Exclusive ∧
      ((start root working).callAll calls).Answers := by
  have held := held_callAll (held_start root working) calls
  exact ⟨apart_of_held held, answers held⟩

end ChunkHolders

end TraceRecorder
